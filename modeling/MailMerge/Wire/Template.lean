import MailMerge.Json.Decode
import MailMerge.Json.Printer
import MailMerge.TemplateError

/-! # Templates and errors as JSON -/

namespace MailMerge

open Json

namespace Template

def slots : List (Slot Template) :=
  [{ name := "name"
     required := true
     read := fun d t => do return { t with name := ← d.toText } },
   { name := "html_format"
     aliases := ["htmlFormat"]
     required := true
     read := fun d t => do return { t with html := ← d.toText } }]

def toDoc (t : Template) : Doc :=
  .record [("name", .ofString t.name), ("html_format", .ofString t.html)]

def ofDoc (d : Doc) : Decoded Template := d.toRecord "Template" slots default

end Template

structure ErrorBody where
  message : String
  deriving DecidableEq, Repr, Inhabited

namespace ErrorBody

def slots : List (Slot ErrorBody) :=
  [{ name := "message"
     required := true
     read := fun d b => do return { b with message := ← d.toText } }]

def toDoc (b : ErrorBody) : Doc := .record [("message", .ofString b.message)]

def ofDoc (d : Doc) : Decoded ErrorBody := d.toRecord "ErrorBody" slots default

end ErrorBody

def TemplateError.body (e : TemplateError) : ErrorBody := ⟨e.publicMessage⟩

end MailMerge
