import MailMerge.Catalog
import MailMerge.Store.Directory

/-! # Settings

What can be set: where the templates lie and with which extension, which placeholders are
required, how an update finds its template, and who the emails are from.
-/

namespace MailMerge

structure Sender where
  name : String := "Mailplate"
  email : String := "no-reply@localhost.localdomain"
  deriving DecidableEq, Repr, Inhabited

structure Settings where
  templatesDir : Option Path := none
  templateExtension : String := DirectoryStore.defaultExtension
  requiredPlaceholders : List Placeholder := [.body]
  updateLookup : UpdateLookup := .incomingName
  sender : Sender := {}
  deriving DecidableEq, Repr, Inhabited

def UpdateLookup.key : UpdateLookup → String
  | incomingName => "incoming_name"
  | routeName => "route_name"

namespace UpdateLookup

def all : List UpdateLookup := [incomingName, routeName]

def ofKey? (key : String) : Option UpdateLookup := all.find? fun l => l.key == key

end UpdateLookup

namespace Settings

def rootAt (home : Path) : Path := home.child ".mailplate"

def fileAt (home : Path) : Path := (rootAt home).child "config.yaml"

def draftAt (home : Path) : Path := (rootAt home).child "config.yaml.tmp"

/-- The folder of the templates: the one that is set, as it is set, or the one under the folder
of the program. -/
def templatesDirAt (s : Settings) (home : Path) : Path :=
  s.templatesDir.getD ((rootAt home).child "templates")

/-- The required placeholders, each once and in the order of `Placeholder.all`. -/
def requiredSet (s : Settings) : List Placeholder :=
  Placeholder.all.filter s.requiredPlaceholders.contains

end Settings

end MailMerge
