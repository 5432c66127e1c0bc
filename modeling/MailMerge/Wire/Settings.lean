import MailMerge.Json.Decode
import MailMerge.Json.Printer
import MailMerge.Settings

/-! # Settings as JSON -/

namespace MailMerge

open Json

def alternatives (names : List String) : String :=
  match names with
  | [a, b] => backquoted a ++ " or " ++ backquoted b
  | _ => "one of " ++ ", ".intercalate (names.map backquoted)

namespace Placeholder

def toDoc (p : Placeholder) : Doc := .ofString p.key

def ofDoc (d : Doc) : Decoded Placeholder := d.toVariant ofKey? (alternatives (all.map key))

end Placeholder

namespace UpdateLookup

def toDoc (l : UpdateLookup) : Doc := .ofString l.key

def ofDoc (d : Doc) : Decoded UpdateLookup := d.toVariant ofKey? (alternatives (all.map key))

end UpdateLookup

namespace Sender

def slots : List (Slot Sender) :=
  [{ name := "name"
     required := true
     read := fun d s => do return { s with name := ← d.toText } },
   { name := "email"
     required := true
     read := fun d s => do return { s with email := ← d.toText } }]

def toDoc (s : Sender) : Doc :=
  .record [("name", .ofString s.name), ("email", .ofString s.email)]

def ofDoc (d : Doc) : Decoded Sender := d.toRecord "SenderIdentity" slots {}

end Sender

namespace Settings

def slots : List (Slot Settings) :=
  [{ name := "templates_dir"
     read := fun d s => do
       let dir ← d.toOption fun d => d.toText "path string"
       return { s with templatesDir := dir.map Path.ofString } },
   { name := "template_extension"
     read := fun d s => do return { s with templateExtension := ← d.toText } },
   { name := "required_placeholders"
     read := fun d s => do
       return { s with requiredPlaceholders := ← d.toList Placeholder.ofDoc } },
   { name := "update_lookup"
     read := fun d s => do return { s with updateLookup := ← UpdateLookup.ofDoc d } },
   { name := "sender"
     read := fun d s => do return { s with sender := ← Sender.ofDoc d } }]

/-- A folder whose path is no text has no JSON form. -/
def toDoc (s : Settings) : Doc :=
  .record (((s.templatesDir.map fun p => ("templates_dir", Doc.text p.text?)).toList) ++
    [("template_extension", .ofString s.templateExtension),
     ("required_placeholders", .list (s.requiredPlaceholders.map Placeholder.toDoc)),
     ("update_lookup", s.updateLookup.toDoc), ("sender", s.sender.toDoc)])

def ofDoc (d : Doc) : Decoded Settings := d.toRecord "MailplateConfig" slots {}

end Settings

end MailMerge
