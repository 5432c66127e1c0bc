import MailMerge.Yaml.Node
import MailMerge.Yaml.Style

/-! # Values from YAML documents

What the nodes of a document stand for. An alias stands for the node with its anchor; a text counts
as it is written where a text is wanted, and nothing at all stands for whatever is empty.
-/

namespace MailMerge.Yaml

/-- One slot of a record of type `ρ`: its name, and how a node gets into the record. -/
structure Slot (ρ : Type) where
  name : String
  read : Node Nat → ρ → Option ρ

namespace Node

def nullTag : Bytes := Utf8.encode "tag:yaml.org,2002:null"

/-- The name in a tag of one's own, which starts with an exclamation mark. -/
def ownTag? (tag : Option Bytes) : Option String :=
  match tag with
  | some (mark :: name) => if mark = 0x21 ∧ name ≠ [] then Utf8.decode? name else none
  | _ => none

variable (root : Node Nat)

/-- A text, whatever it might stand for besides itself. -/
def toText (node : Node Nat) : Option String := do
  match ← root.resolve node with
  | .scalar _ _ text => some (String.ofList text)
  | _ => none

/-- A text that may be missing: nothing is there if it is written plain and stands for that. -/
def toOption (node : Node Nat) : Option (Option String) := do
  match ← root.resolve node with
  | .scalar props isPlain text =>
    if props.tag = some nullTag then
      if !text.isEmpty && isNull text then some none else none
    else if props.tag.isNone && isPlain && isNull text then some none
    else some (some (String.ofList text))
  | _ => none

def toVariant {α : Type} (ofKey? : String → Option α) (node : Node Nat) : Option α := do
  match ← root.resolve node with
  | .scalar props isPlain text =>
    match ownTag? props.tag with
    | some key => if isPlain && isNull text then ofKey? key else none
    | none => ofKey? (String.ofList text)
  | _ => none

def itemsToList {α : Type} (read : Node Nat → Option α) : Items Nat → Option (List α)
  | .nil => some []
  | .cons head tail => do return (← read head) :: (← itemsToList read tail)

/-- A list, for which nothing at all stands as well as an empty one. -/
def toList {α : Type} (read : Node Nat → Option α) (node : Node Nat) : Option (List α) := do
  match ← root.resolve node with
  | .sequence _ items => itemsToList read items
  | .scalar _ true [] => some []
  | _ => none

/-- Takes the entries of a mapping into a record. Keys are texts, no slot is filled twice, and other
keys say nothing. Gives the record and the names of the slots that were filled. -/
def entriesToRecord {ρ : Type} (slots : List (Slot ρ)) (seen : List String) (draft : ρ) :
    Entries Nat → Option (ρ × List String)
  | .nil => some (draft, seen)
  | .cons key value tail => do
    let name ← root.toText key
    match slots.find? fun f => f.name == name with
    | none => entriesToRecord slots seen draft tail
    | some f =>
      if seen.contains name then none
      else entriesToRecord slots (name :: seen) (← f.read value draft) tail

/-- A record, for which nothing at all stands as well as an empty mapping. -/
def toRecord {ρ : Type} (slots : List (Slot ρ)) (draft : ρ) (node : Node Nat) :
    Option (ρ × List String) := do
  match ← root.resolve node with
  | .mapping _ entries => root.entriesToRecord slots [] draft entries
  | .scalar _ true [] => some (draft, [])
  | _ => none

end Node

end MailMerge.Yaml
