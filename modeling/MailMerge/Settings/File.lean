import MailMerge.Settings.Yaml

/-! # The settings file

Settings are stored in one file below the home folder. They are written to a draft first, which
then takes the place of the file, so that the file is never half written. Where there is no file,
everything has its usual value.
-/

namespace MailMerge

open Disk

inductive SettingsError
  | storage (path : Path) (fault : Fault)
  | unwritable
  | unreadable (path : Path)
  | noHome
  deriving DecidableEq, Repr

namespace SettingsError

def message (detail : String) : SettingsError → String
  | storage path fault => "I/O error at " ++ path.display ++ ": " ++ fault.message
  | unwritable => "YAML serialization error: path contains invalid UTF-8 characters"
  | unreadable path => "failed to parse config at " ++ path.display ++ ": " ++ detail
  | noHome => "cannot determine home directory; set $HOME or equivalent"

end SettingsError

abbrev SettingsM (α : Type) : Type := ExceptT SettingsError Program α

def SettingsM.request {α : Type} (path : Path) (p : Program (Except Fault α)) : SettingsM α :=
  ExceptT.mk do
    match ← p with
    | .ok a => return .ok a
    | .error fault => return .error (.storage path fault)

namespace Settings

def fileMode : Nat := 0o600

/-- The settings stored below `home`, or the usual ones if there is no file. -/
def load (home : Path) : SettingsM Settings := do
  let path := fileAt home
  if !(← Program.pathExists path) then return {}
  let text ← SettingsM.request path (Program.readText path)
  match ofYaml? text with
  | some s => return s
  | none => throw (.unreadable path)

def save (s : Settings) (home : Path) : SettingsM Unit := do
  SettingsM.request (rootAt home) (Program.makeFolders (rootAt home))
  let some text := s.toYaml? | throw .unwritable
  let draft := draftAt home
  SettingsM.request draft (Program.perform (.write draft (Utf8.encode text)))
  SettingsM.request draft (Program.perform (.setMode draft fileMode))
  SettingsM.request (fileAt home) (Program.perform (.rename draft (fileAt home)))

/-- The settings stored below `home`. The usual ones are stored if there is no file. -/
def init (home : Path) : SettingsM Settings := do
  if ← Program.pathExists (fileAt home) then load home
  else
    save {} home
    return {}

end Settings

end MailMerge
