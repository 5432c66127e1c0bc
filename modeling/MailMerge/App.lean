import MailMerge.Envelope
import MailMerge.Settings.File

/-! # The whole program

Settings together with a store: what is needed to look after templates and to compose emails.
-/

namespace MailMerge

open Disk

/-- Why the program cannot be set up. -/
inductive AppError
  | settings (e : SettingsError)
  | template (e : TemplateError)
  deriving DecidableEq, Repr

def AppError.message (detail : String) : AppError → String
  | settings e => "config error: " ++ e.message detail
  | template e => "template error: " ++ e.message

structure App (σ : Type) where
  settings : Settings
  store : σ

namespace App

variable {σ : Type}

def update [TemplateStore σ] (settings : Settings) (name : String) (t : Template) :
    StoreM σ Template :=
  Catalog.update settings.updateLookup name t

def compose [TemplateStore σ] (settings : Settings) (request : EmailRequest) :
    StoreM σ Envelope :=
  MailMerge.compose settings.requiredSet settings.sender request

abbrev SetupM (α : Type) : Type := ExceptT AppError Program α

def SetupM.ofSettingsM {α : Type} (m : SettingsM α) : SetupM α :=
  ExceptT.mk (Except.mapError AppError.settings <$> m.run)

def ofSettings (settings : Settings) (home : Path) : SetupM (App DirectoryStore) :=
  ExceptT.mk do
    match ← DirectoryStore.openAt (settings.templatesDirAt home) settings.templateExtension with
    | .ok store => return .ok { settings, store }
    | .error e => return .error (.template e)

def openAt (home : Path) : SetupM (App DirectoryStore) := do
  ofSettings (← SetupM.ofSettingsM (Settings.load home)) home

/-- Stores what is missing: settings, the folder of the templates and the protected template. -/
def initAt (home : Path) : SetupM (App DirectoryStore) := do
  let app ← ofSettings (← SetupM.ofSettingsM (Settings.init home)) home
  ExceptT.mk do
    match ← TemplateStore.seedDefault.start app.store with
    | (.ok _, store) => return .ok { app with store }
    | (.error e, _) => return .error (.template e)

end App

end MailMerge
