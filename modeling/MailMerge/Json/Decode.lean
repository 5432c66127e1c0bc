import MailMerge.Json.Document
import MailMerge.Text.Quoted

/-! # Values from JSON documents

What a document stands for, taken part by part in the order in which it is written. A part of the
wrong kind is told apart from a text that is not JSON, and whichever comes first counts.
-/

namespace MailMerge.Json

/-- Why a document gives no value: it is not JSON, or it is of the wrong shape. -/
inductive DecodeError
  | malformed
  | mismatch (message : String)
  deriving DecidableEq, Repr

abbrev Decoded (α : Type) : Type := Except DecodeError α

def backquoted (name : String) : String := "\x60" ++ name ++ "\x60"

namespace Doc

/-- What the value is called in a message; nothing for what is not JSON. -/
def kind? : Doc → Option String
  | null => some "null"
  | bool b => some ("boolean " ++ backquoted (if b then "true" else "false"))
  | number n => n.quantity?.map Quantity.describe
  | text s => s.map fun s => "string " ++ showQuoted s
  | array _ => some "sequence"
  | object _ => some "map"
  | broken => none

def unexpected {α : Type} (d : Doc) (expected : String) : Decoded α :=
  match d.kind? with
  | some kind => .error (.mismatch ("invalid type: " ++ kind ++ ", expected " ++ expected))
  | none => .error .malformed

def toText (d : Doc) (expected : String := "a string") : Decoded String :=
  match d with
  | text (some s) => .ok s
  | d => d.unexpected expected

def toOption {α : Type} (read : Doc → Decoded α) : Doc → Decoded (Option α)
  | null => .ok none
  | d => some <$> read d

def variant {α : Type} (ofKey? : String → Option α) (expected : String) (key : String) :
    Decoded α :=
  match ofKey? key with
  | some a => .ok a
  | none =>
    .error (.mismatch ("unknown variant " ++ backquoted key ++ ", expected " ++ expected))

def toVariant {α : Type} (ofKey? : String → Option α) (expected : String) : Doc → Decoded α
  | text (some key) => variant ofKey? expected key
  | object (.cons (some key) value rest) => do
    let a ← variant ofKey? expected key
    match value, rest with
    | null, .closed => .ok a
    | null, _ => .error .malformed
    | d, _ => d.unexpected "unit"
  | object (.cut name) => name.unexpected "variant identifier"
  | _ => .error .malformed

end Doc

def Items.toList {α : Type} (read : Doc → Decoded α) : Items → Decoded (List α)
  | closed => .ok []
  | cut => .error .malformed
  | cons head tail => do return (← read head) :: (← tail.toList read)

def Doc.toList {α : Type} (read : Doc → Decoded α) : Doc → Decoded (List α)
  | array items => items.toList read
  | d => d.unexpected "a sequence"

mutual

/-- No part is missing or broken. -/
def Doc.isWhole : Doc → Bool
  | .array items => items.isWhole
  | .object members => members.isWhole
  | .broken => false
  | _ => true

def Items.isWhole : Items → Bool
  | .closed => true
  | .cut => false
  | .cons head tail => head.isWhole && tail.isWhole

def Members.isWhole : Members → Bool
  | .closed => true
  | .cut _ => false
  | .cons _ value tail => value.isWhole && tail.isWhole

end

mutual

/-- Every part stands for something, and no more than `room` arrays and objects lie in each
other. -/
def Doc.isMeaningful (room : Nat) : Doc → Bool
  | .number n => n.quantity?.isSome
  | .text s => s.isSome
  | .array items => decide (0 < room) && items.isMeaningful (room - 1)
  | .object members => decide (0 < room) && members.isMeaningful (room - 1)
  | .broken => false
  | _ => true

def Items.isMeaningful (room : Nat) : Items → Bool
  | .closed => true
  | .cut => false
  | .cons head tail => head.isMeaningful room && tail.isMeaningful room

def Members.isMeaningful (room : Nat) : Members → Bool
  | .closed => true
  | .cut _ => false
  | .cons name value tail => name.isSome && value.isMeaningful room && tail.isMeaningful room

end

/-- One slot of a record of type `ρ`: its names, and how a value gets into the record. -/
structure Slot (ρ : Type) where
  name : String
  aliases : List String := []
  required : Bool := false
  read : Doc → ρ → Decoded ρ

namespace Slot

variable {ρ : Type}

def answersTo (f : Slot ρ) (key : String) : Bool := f.name == key || f.aliases.contains key

def find? (slots : List (Slot ρ)) (key : String) : Option (Slot ρ) :=
  slots.find? fun f => f.answersTo key

def missing (slots : List (Slot ρ)) (seen : List String) : Decoded Unit :=
  match slots.find? fun f => f.required && !seen.contains f.name with
  | some f => .error (.mismatch ("missing field " ++ backquoted f.name))
  | none => .ok ()

end Slot

/-- Takes the members of an object into a record. `other` deals with members without a slot; no
slot is filled twice, whatever the value. -/
def Members.intoRecord {ρ : Type} (slots : List (Slot ρ))
    (other : String → Doc → ρ → Decoded ρ) (seen : List String) (draft : ρ) :
    Members → Decoded ρ
  | closed => do
    Slot.missing slots seen
    return draft
  | cut _ => .error .malformed
  | cons none _ _ => .error .malformed
  | cons (some key) value tail =>
    match Slot.find? slots key with
    | none => do tail.intoRecord slots other seen (← other key value draft)
    | some f => do
      if seen.contains f.name then
        throw (.mismatch ("duplicate field " ++ backquoted f.name))
      tail.intoRecord slots other (f.name :: seen) (← f.read value draft)

/-- Takes the items of an array into a record, in the order of its slots. Slots that are not
required may be left out at the end. -/
def Items.intoRecord {ρ : Type} (expected : String) (draft : ρ) (taken : Nat) :
    List (Slot ρ) → Items → Decoded ρ
  | [], closed => .ok draft
  | [], _ => .error .malformed
  | f :: _, closed =>
    if f.required then
      .error (.mismatch ("invalid length " ++ toString taken ++ ", expected " ++ expected))
    else .ok draft
  | _ :: _, cut => .error .malformed
  | f :: slots, cons head tail => do
    tail.intoRecord expected (← f.read head draft) (taken + 1) slots

def skip {ρ : Type} (_ : String) (value : Doc) (draft : ρ) : Decoded ρ :=
  if value.isWhole then .ok draft else .error .malformed

/-- A record, written as an object or as an array in the order of its slots. -/
def Doc.toRecord {ρ : Type} (name : String) (slots : List (Slot ρ)) (draft : ρ) :
    Doc → Decoded ρ
  | object members => members.intoRecord slots skip [] draft
  | array items =>
    let size := toString slots.length ++ if slots.length = 1 then " element" else " elements"
    items.intoRecord ("struct " ++ name ++ " with " ++ size) draft 0 slots
  | d => d.unexpected ("struct " ++ name)

def decode {α : Type} (read : Doc → Decoded α) (s : String) : Decoded α := do
  let document := Document.ofString s
  let a ← read document.root
  if document.complete then return a else throw .malformed

end MailMerge.Json
