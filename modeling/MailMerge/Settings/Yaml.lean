import MailMerge.Settings
import MailMerge.Yaml.Decode

/-! # Settings as YAML

The form in which settings are stored. What is written can be read back; what is read may leave
out any setting and hold others, which say nothing.
-/

namespace MailMerge

open Yaml

namespace Sender

def nodeSlots (root : Node Nat) : List (Slot Sender) :=
  [{ name := "name", read := fun n s => do return { s with name := ← root.toText n } },
   { name := "email", read := fun n s => do return { s with email := ← root.toText n } }]

def ofNode (root node : Node Nat) : Option Sender := do
  let (sender, seen) ← root.toRecord (nodeSlots root) {} node
  if seen.length = (nodeSlots root).length then some sender else none

end Sender

namespace Settings

def nodeSlots (root : Node Nat) : List (Slot Settings) :=
  [{ name := "templates_dir"
     read := fun n s => do
       return { s with templatesDir := (← root.toOption n).map Path.ofString } },
   { name := "template_extension"
     read := fun n s => do return { s with templateExtension := ← root.toText n } },
   { name := "required_placeholders"
     read := fun n s => do
       let required ← root.toList (root.toVariant Placeholder.ofKey?) n
       return { s with requiredPlaceholders := required } },
   { name := "update_lookup"
     read := fun n s => do
       return { s with updateLookup := ← root.toVariant UpdateLookup.ofKey? n } },
   { name := "sender"
     read := fun n s => do return { s with sender := ← Sender.ofNode root n } }]

/-- The settings that a text holds; nothing if it is no YAML or holds something else. -/
def ofYaml? (s : String) : Option Settings := do
  match ← document? s with
  | none => some {}
  | some root => do return (← root.toRecord (nodeSlots root) {} root).1

def yamlEntry (indent : Nat) (key : String) (value : String) : List Char :=
  spaces indent ++ key.toList ++ [':', ' '] ++ writeText (indent + 2) value

def yamlPlaceholders (ps : List Placeholder) : List Char :=
  if ps.isEmpty then " []\n".toList
  else '\n' :: ps.flatMap fun p => "- ".toList ++ p.key.toList ++ ['\n']

/-- The settings as a text. A folder whose path is no text cannot be written. -/
def toYaml? (s : Settings) : Option String := do
  let dir ←
    match s.templatesDir with
    | none => some []
    | some p => p.text?.map (yamlEntry 0 "templates_dir")
  return String.ofList
    (dir ++ yamlEntry 0 "template_extension" s.templateExtension ++
      "required_placeholders:".toList ++ yamlPlaceholders s.requiredPlaceholders ++
      yamlEntry 0 "update_lookup" s.updateLookup.key ++
      "sender:\n".toList ++ yamlEntry 2 "name" s.sender.name ++
      yamlEntry 2 "email" s.sender.email)

end Settings

end MailMerge
