import MailMerge.Address
import MailMerge.Marker
import MailMerge.Store.Basic

/-! # Rendering

From a request and a stored template to the text of an email. A required placeholder that occurs
in the template needs a value that is not blank, and no value may hold a marker.
-/

namespace MailMerge

structure EmailRequest where
  recipient : Option String := none
  title : Option String := none
  templateName : Option String := none
  fragments : Fragments := {}
  deriving DecidableEq, Repr, Inhabited

structure RenderedEmail where
  recipient : String
  subject : String
  templateName : String
  html : String
  deriving DecidableEq, Repr

def recipientField : String := "Email"

def titleField : String := "Title"

def requireValue (field : String) (value : Option String) : Except TemplateError String :=
  match value with
  | some v => if isBlank v then .error (.badRequest field "is required") else .ok v
  | none => .error (.badRequest field "is required")

/-- An address that breaks no rule, as it was given. -/
def checkAddress (address : Option String) : Except TemplateError String := do
  let a ← requireValue recipientField address
  match AddressFault.of? a with
  | none => .ok a
  | some fault => .error (.badRequest recipientField fault.reason)

/-- The template that a request is rendered from: the one it names, else the protected one. -/
def resolveName (name : Option String) : String :=
  match name with
  | some n => if isBlank n then defaultName else n
  | none => defaultName

/-- Unless another set is given, only the body is required. -/
def defaultRequired : List Placeholder := [.body]

/-- A required placeholder that occurs in the template needs a value that is not blank. -/
def checkRequired (required : List Placeholder) (t : Template) (f : Fragments) :
    Except TemplateError Unit :=
  match Placeholder.all.find? fun p => required.contains p && t.contains p && f.isBlankAt p with
  | some p => .error (.valueRequired p)
  | none => .ok ()

/-- No supplied value may hold a marker. -/
def checkMisuse (f : Fragments) : Except TemplateError Unit :=
  match f.toList.findSome? fun e => (findMarker e.2).map fun m => (e.1, m.1) with
  | some (p, marker) => .error (.unexpanded p.label marker)
  | none => .ok ()

def renderTemplate (required : List Placeholder) (t : Template) (f : Fragments) :
    Except TemplateError String := do
  checkRequired required t f
  checkMisuse f
  return t.render f

/-- The email that a request asks for. Recipient and title are checked before the store is
asked for the template. -/
def renderRequest {σ : Type} [TemplateStore σ] (required : List Placeholder)
    (request : EmailRequest) : StoreM σ RenderedEmail := do
  let _ ← StoreM.ofExcept (requireValue recipientField request.recipient)
  let subject ← StoreM.ofExcept (requireValue titleField request.title)
  let recipient ← StoreM.ofExcept (checkAddress request.recipient)
  let t ← TemplateStore.get (resolveName request.templateName)
  let html ← StoreM.ofExcept (renderTemplate required t request.fragments)
  return { recipient, subject, templateName := t.name, html }

end MailMerge
