import MailMerge.Disk.Fault
import MailMerge.Disk.Path
import MailMerge.Template

/-! # Errors

Every reason for which a look-up, a change or a rendering fails. Each has one wording, one status
for the outside, and one text that may be shown there: a storage error is shown without its path
and cause.
-/

namespace MailMerge

inductive Action
  | updated
  | deleted
  deriving DecidableEq, Repr

def Action.verb : Action → String
  | updated => "updated"
  | deleted => "deleted"

inductive TemplateError
  | badRequest (field reason : String)
  | valueRequired (p : Placeholder)
  | unexpanded (field token : String)
  | notFound (name : String)
  | duplicate (name : String)
  | unauthorized (name : String) (action : Action)
  | invalidName (name reason : String)
  | storage (path : Path) (fault : Disk.Fault)
  deriving DecidableEq, Repr

namespace TemplateError

def message : TemplateError → String
  | badRequest field reason => "invalid email request: " ++ field ++ " " ++ reason
  | valueRequired p => "template requires a value for " ++ p.label
  | unexpanded field token => field ++ " contains the unexpanded placeholder " ++ token
  | notFound name => "template not found: " ++ name
  | duplicate name => "a template named '" ++ name ++ "' already exists"
  | unauthorized name action => "the '" ++ name ++ "' template cannot be " ++ action.verb
  | invalidName name reason => "invalid template name '" ++ name ++ "': " ++ reason
  | storage path fault =>
    "template storage error at " ++ path.display ++ ": " ++ fault.message

def status : TemplateError → Nat
  | badRequest .. | valueRequired _ | unexpanded .. | duplicate _ | invalidName .. => 400
  | unauthorized .. => 401
  | notFound _ => 404
  | storage .. => 500

def isStorage : TemplateError → Bool
  | storage .. => true
  | _ => false

/-- The text shown to the outside in place of a storage error. -/
def storageNotice : String := "internal template storage error"

/-- What the outside is told. -/
def publicMessage (e : TemplateError) : String :=
  if e.isStorage then storageNotice else e.message

end TemplateError

def checkName (name : String) : Except TemplateError Unit :=
  match NameFault.of? name with
  | none => .ok ()
  | some fault => .error (.invalidName name fault.reason)

theorem checkName_eq_ok_iff {name : String} : checkName name = .ok () ↔ ValidName name := by
  unfold checkName ValidName
  cases NameFault.of? name <;> simp

end MailMerge
