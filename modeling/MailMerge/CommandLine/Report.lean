import MailMerge.App
import MailMerge.CommandLine.Command
import MailMerge.Json.Decode
import MailMerge.Text.Table
import MailMerge.Wire.Request
import MailMerge.Wire.Template

/-! # Reports

What a command does and what it prints. A failure is told with its causes; a template error is
told as the outside may know it, with its status.
-/

namespace MailMerge.CommandLine

open Disk

inductive Failure
  | homeless
  | setup (context : String) (e : AppError)
  | unreadable (path : Path) (fault : Fault)
  | noRequest (path : Path) (e : Json.DecodeError)
  | rejected (e : TemplateError)
  deriving DecidableEq, Repr

def faultOf : TemplateError → List Fault
  | .storage _ fault => [fault]
  | _ => []

def settingsFaultOf : SettingsError → List Fault
  | .storage _ fault => [fault]
  | _ => []

def malformedNotice : String := "malformed text"

namespace Failure

def message : Failure → String
  | homeless => "could not determine home directory"
  | setup context _ => context
  | unreadable path _ => "failed to read " ++ path.display
  | noRequest path _ => "failed to parse " ++ path.display
  | rejected e => e.publicMessage ++ " (status " ++ toString e.status ++ ")"

/-- What led to the failure, the nearest cause first. -/
def causes : Failure → List String
  | homeless => [SettingsError.noHome.message malformedNotice]
  | setup _ (.settings e) =>
    [(AppError.settings e).message malformedNotice, e.message malformedNotice] ++
      (settingsFaultOf e).map Fault.message
  | setup _ (.template e) =>
    [(AppError.template e).message malformedNotice, e.message] ++ (faultOf e).map Fault.message
  | unreadable _ fault => [fault.message]
  | noRequest _ .malformed => [malformedNotice]
  | noRequest _ (.mismatch message) => [message]
  | rejected _ => []

/-- A text after `start`, whose further lines begin with `next`. -/
def indented (start next : List Char) (text : String) : List Char :=
  start ++ List.intercalate ('\n' :: next) (fields '\n' text.toList)

def causeNumber (n : Nat) : List Char :=
  let digits := Nat.toDigits 10 n
  List.replicate (5 - digits.length) ' ' ++ digits ++ [':', ' ']

/-- The causes, each on a line of its own; several of them are numbered. -/
def causeLines (causes : List String) : List Char :=
  let spaces (n : Nat) := List.replicate n ' '
  match causes with
  | [cause] => '\n' :: indented (spaces 4) (spaces 4) cause
  | _ => causes.zipIdx.flatMap fun c => '\n' :: indented (causeNumber c.2) (spaces 7) c.1

def text (f : Failure) : String :=
  "Error: " ++ f.message ++
    (if f.causes.isEmpty then ""
     else "\n\nCaused by:" ++ String.ofList (causeLines f.causes)) ++ "\n"

end Failure

structure Report where
  exit : Nat := 0
  output : String := ""
  error : String := ""
  deriving DecidableEq, Repr

abbrev CommandM : Type → Type := ExceptT Failure Program

namespace CommandM

variable {α : Type}

def setup (context : String) (m : App.SetupM α) : CommandM α :=
  ExceptT.mk (Except.mapError (Failure.setup context) <$> m.run)

def deal (app : App DirectoryStore) (m : StoreM DirectoryStore α) : CommandM α :=
  ExceptT.mk do
    match ← m.start app.store with
    | (.ok a, _) => return .ok a
    | (.error e, _) => return .error (.rejected e)

def readFile (path : Path) : CommandM String :=
  ExceptT.mk (Except.mapError (Failure.unreadable path) <$> Program.readText path)

end CommandM

def Source.read : Source → CommandM String
  | .file path => CommandM.readFile path
  | .inline html => return html

/-- The request in the file, if one is named, with what the options say. -/
def RenderOptions.toRequest (o : RenderOptions) : CommandM EmailRequest := do
  match o.request with
  | none => return o.applyTo {}
  | some path =>
    match EmailRequest.ofJson (← CommandM.readFile path) with
    | .ok r => return o.applyTo r
    | .error e => throw (.noRequest path e)

def rowOf (t : Template) : Table.Row :=
  [if t.isProtected then t.name ++ " (protected)" else t.name,
   if t.placeholders.isEmpty then "-" else ", ".intercalate (t.placeholders.map Placeholder.label),
   toString t.html.utf8ByteSize]

def listText (ts : List Template) : String :=
  if ts.isEmpty then "No templates. Run 'mailplate init' to seed the Default template.\n"
  else Table.render ["name", "placeholders", "bytes"] (ts.map rowOf)

def doneText (action name : String) : String :=
  "✓ " ++ action ++ " template '" ++ name ++ "'\n"

/-- What a command wants to do when it cannot open the store. -/
def openContext : String := "failed to open template store"

def openApp (home : Path) : CommandM (App DirectoryStore) :=
  CommandM.setup openContext (App.openAt home)

def Command.withoutHome : Command → Failure
  | init => .homeless
  | _ => .setup openContext (.settings .noHome)

/-- Does what is asked for; gives what is printed. -/
def Command.perform (home : Path) : Command → CommandM String
  | init => do
    let app ← CommandM.setup "failed to initialise mailplate" (App.initAt home)
    return "✓ Initialised mailplate\n" ++
      "  Config:    " ++ (Settings.fileAt home).display ++ "\n" ++
      "  Templates: " ++ (app.settings.templatesDirAt home).display ++ "\n"
  | list json => do
    let app ← openApp home
    let ts ← CommandM.deal app Catalog.list
    if json then
      return (Json.Doc.list (ts.map fun t => .ofString t.name)).printPretty ++ "\n"
    else return listText ts
  | print name => do
    let app ← openApp home
    return (← CommandM.deal app (Catalog.get name)).html ++ "\n"
  | create name source => do
    let app ← openApp home
    let html ← source.read
    return doneText "Created" (← CommandM.deal app (Catalog.create ⟨name, html⟩)).name
  | update name newName source => do
    let app ← openApp home
    let html ← source.read
    let t : Template := ⟨newName.getD name, html⟩
    return doneText "Updated" (← CommandM.deal app (App.update app.settings name t)).name
  | delete name => do
    let app ← openApp home
    return doneText "Deleted" (← CommandM.deal app (Catalog.delete name)).name
  | render options => do
    let app ← openApp home
    let request ← options.toRequest
    let email ← CommandM.deal app (App.compose app.settings request)
    return (if options.json then email.toDoc.printPretty else email.html) ++ "\n"

def Refusal.report : Refusal → Report
  | usage => { exit := 2 }
  | help => { output := "mailplate [init | template | render]\n" }
  | version => { output := "mailplate 0.1.0\n" }

def Report.ofResult : Except Failure String → Report
  | .ok output => { output }
  | .error failure => { exit := 1, error := failure.text }

/-- Runs the command that the words name, with this home folder if there is one. -/
def run (home : Option Path) (words : List String) : Program Report := do
  match Command.ofWords words, home with
  | .error refusal, _ => return refusal.report
  | .ok command, some home => return .ofResult (← (command.perform home).run)
  | .ok command, none => return .ofResult (.error command.withoutHome)

end MailMerge.CommandLine
