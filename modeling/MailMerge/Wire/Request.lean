import MailMerge.Envelope
import MailMerge.Json.Decode
import MailMerge.Json.Printer

/-! # Requests and emails as JSON

The documents in which requests and fragments come in and emails go out. A request holds its
fragments among its own members. Its own members are read as they come and all others are set
aside; the fragments are taken from those afterwards.
-/

namespace MailMerge

open Json

def Placeholder.keyAliases : Placeholder → List String
  | correspondentName => ["correspondentName"]
  | senderName => ["senderName"]
  | _ => []

def optionalText (d : Doc) : Decoded (Option String) := d.toOption Doc.toText

namespace Fragments

def slots : List (Slot Fragments) :=
  Placeholder.all.map fun p =>
    { name := p.key
      aliases := p.keyAliases
      read := fun d f => do return f.set p (← optionalText d) }

def toMembers (f : Fragments) : List (String × Doc) :=
  f.toList.map fun e => (e.1.key, .ofString e.2)

def toDoc (f : Fragments) : Doc := .record f.toMembers

def ofDoc (d : Doc) : Decoded Fragments := d.toRecord "Fragments" slots {}

end Fragments

/-- A request while it is read: what is known of it, and the members set aside. -/
structure RequestDraft where
  request : EmailRequest := {}
  aside : List (String × Doc) := []

namespace RequestDraft

def slots : List (Slot RequestDraft) :=
  [{ name := "recipient"
     aliases := ["email", "to"]
     read := fun d r => do
       return { r with request := { r.request with recipient := ← optionalText d } } },
   { name := "title"
     aliases := ["subject"]
     read := fun d r => do
       return { r with request := { r.request with title := ← optionalText d } } },
   { name := "template_name"
     aliases := ["templateName"]
     read := fun d r => do
       return { r with request := { r.request with templateName := ← optionalText d } } }]

/-- How many arrays and objects may lie in each other below a request. -/
def room : Nat := 126

/-- Sets a member aside. Every part of it has to stand for something. -/
def setAside (key : String) (value : Doc) (r : RequestDraft) : Decoded RequestDraft :=
  if value.isMeaningful room then .ok { r with aside := (key, value) :: r.aside }
  else .error .malformed

def finish (r : RequestDraft) : Decoded EmailRequest := do
  let fragments ← (Members.ofList r.aside.reverse).intoRecord Fragments.slots skip [] {}
  return { r.request with fragments }

end RequestDraft

namespace EmailRequest

def toDoc (r : EmailRequest) : Doc :=
  .record ([("recipient", .ofOption r.recipient), ("title", .ofOption r.title),
    ("template_name", .ofOption r.templateName)] ++ r.fragments.toMembers)

def ofDoc : Doc → Decoded EmailRequest
  | .object members => do
    (← members.intoRecord RequestDraft.slots RequestDraft.setAside [] {}).finish
  | d => d.unexpected "struct EmailRequest"

def ofJson (s : String) : Decoded EmailRequest := decode ofDoc s

end EmailRequest

def RenderedEmail.toDoc (e : RenderedEmail) : Doc :=
  .record [("recipient", .ofString e.recipient), ("subject", .ofString e.subject),
    ("template_name", .ofString e.templateName), ("html", .ofString e.html)]

def Envelope.toDoc (e : Envelope) : Doc :=
  .record [("to_address", .ofString e.toAddress), ("subject", .ofString e.subject),
    ("html", .ofString e.html), ("from_name", .ofString e.fromName),
    ("from_email", .ofString e.fromEmail), ("template_name", .ofString e.templateName)]

end MailMerge
