import MailMerge.Json.Number
import MailMerge.Text.Hexadecimal

/-! # JSON documents

A JSON text read as far as it goes. Where it stops being JSON the document holds a break instead,
so that whoever goes through it in order meets what comes first, a wrong value or a break.
Numbers and texts are kept even if they stand for nothing, since only a look at them tells.
-/

namespace MailMerge.Json

mutual

/-- A value, or the place where the text breaks off. A text whose escapes name no characters is
`text none`. -/
inductive Doc
  | null
  | bool (b : Bool)
  | number (n : Number)
  | text (s : Option String)
  | array (items : Items)
  | object (members : Members)
  | broken

/-- The items of an array, closed by a bracket or cut off. -/
inductive Items
  | closed
  | cut
  | cons (head : Doc) (tail : Items)

/-- The members of an object, closed by a brace or cut off; `cut` holds what stands in place of
the next name. -/
inductive Members
  | closed
  | cut (name : Doc)
  | cons (name : Option String) (value : Doc) (tail : Members)

end

def isGap (c : Char) : Bool := c == ' ' || c == '\n' || c == '\t' || c == '\r'

def skipGap (cs : List Char) : List Char := cs.dropWhile isGap

def escaped? (c : Char) : Option Char :=
  match c with
  | '"' | '\\' | '/' => some c
  | 'b' => some '\x08'
  | 'f' => some '\x0c'
  | 'n' => some '\n'
  | 'r' => some '\r'
  | 't' => some '\t'
  | _ => none

/-- The 16-bit units that a text is written in, up to the closing quote, and what follows it.
Nothing if the text is not closed, holds a control character, or an escape is none. A character
counts as one unit here whatever its code. -/
def readUnits : List Char → Option (List Nat × List Char)
  | [] => none
  | '"' :: cs => some ([], cs)
  | '\\' :: 'u' :: a :: b :: c :: d :: cs => do
    let unit ← Hexadecimal.read? [a, b, c, d]
    let (units, rest) ← readUnits cs
    return (unit :: units, rest)
  | '\\' :: c :: cs => do
    let e ← escaped? c
    let (units, rest) ← readUnits cs
    return (e.toNat :: units, rest)
  | c :: cs =>
    if c.toNat < 0x20 ∨ c = '\\' then none
    else do
      let (units, rest) ← readUnits cs
      return (c.toNat :: units, rest)

def isLeading (unit : Nat) : Bool := decide (0xD800 ≤ unit) && decide (unit ≤ 0xDBFF)

def isTrailing (unit : Nat) : Bool := decide (0xDC00 ≤ unit) && decide (unit ≤ 0xDFFF)

/-- The characters that units stand for: a leading unit and a trailing one make one character, and
alone they make none. -/
def joinUnits : List Nat → Option (List Char)
  | [] => some []
  | [unit] => if isLeading unit || isTrailing unit then none else some [Char.ofNat unit]
  | unit :: next :: units =>
    if isLeading unit then
      if isTrailing next then do
        let cs ← joinUnits units
        return Char.ofNat (0x10000 + (unit - 0xD800) * 0x400 + (next - 0xDC00)) :: cs
      else none
    else if isTrailing unit then none
    else do
      let cs ← joinUnits (next :: units)
      return Char.ofNat unit :: cs

def readText (cs : List Char) : Option (Option String × List Char) :=
  (readUnits cs).map fun r => ((joinUnits r.1).map String.ofList, r.2)

def readDigits (cs : List Char) : List Nat × List Char :=
  ((cs.takeWhile Char.isDigit).map fun c => c.toNat - 48, cs.dropWhile Char.isDigit)

def readExponent (cs : List Char) : Option (Option (Bool × List Nat) × List Char) :=
  match cs with
  | [] => some (none, [])
  | c :: rest =>
    if c = 'e' ∨ c = 'E' then
      let (isNegative, rest) :=
        match rest with
        | '-' :: r => (true, r)
        | '+' :: r => (false, r)
        | r => (false, r)
      let (digits, rest) := readDigits rest
      if digits.isEmpty then none else some (some (isNegative, digits), rest)
    else some (none, cs)

/-- A number after its sign. A zero in front stands alone. -/
def readUnsigned (negative : Bool) (cs : List Char) : Option (Number × List Char) :=
  let (whole, rest) := readDigits cs
  if whole.isEmpty ∨ (whole.head? = some 0 ∧ whole.length ≠ 1) then none
  else
    let (fraction, rest, broken) :=
      match rest with
      | '.' :: r =>
        let (ds, r') := readDigits r
        (ds, r', ds.isEmpty)
      | r => ([], r, false)
    if broken then none
    else (readExponent rest).map fun e => (⟨negative, whole, fraction, e.1⟩, e.2)

def readNumber (cs : List Char) : Option (Number × List Char) :=
  match cs with
  | '-' :: rest => readUnsigned true rest
  | _ => readUnsigned false cs

def settle {α : Type} (f : α → Doc) : Option (α × List Char) → Doc × List Char
  | some (a, rest) => (f a, rest)
  | none => (.broken, [])

mutual

/-- The next value and what follows it. `fuel` bounds the depth and the number of parts; the
length of the text is enough. -/
def readValue : (fuel : Nat) → List Char → Doc × List Char
  | 0, _ => (.broken, [])
  | fuel + 1, cs =>
    match skipGap cs with
    | '"' :: rest => settle .text (readText rest)
    | '[' :: rest =>
      let (items, rest) := readItems fuel true rest
      (.array items, rest)
    | '\x7B' :: rest =>
      let (members, rest) := readMembers fuel true rest
      (.object members, rest)
    | 'n' :: 'u' :: 'l' :: 'l' :: rest => (.null, rest)
    | 't' :: 'r' :: 'u' :: 'e' :: rest => (.bool true, rest)
    | 'f' :: 'a' :: 'l' :: 's' :: 'e' :: rest => (.bool false, rest)
    | c :: rest =>
      if c = '-' ∨ c.isDigit = true then settle .number (readNumber (c :: rest)) else (.broken, [])
    | [] => (.broken, [])

def readItems : (fuel : Nat) → (first : Bool) → List Char → Items × List Char
  | 0, _, _ => (.cut, [])
  | fuel + 1, first, cs =>
    match skipGap cs with
    | ']' :: rest => (.closed, rest)
    | c :: rest =>
      if first then readItem fuel (c :: rest)
      else if c = ',' then
        match skipGap rest with
        | [] => (.cut, [])
        | ']' :: _ => (.cut, [])
        | next => readItem fuel next
      else (.cut, [])
    | [] => (.cut, [])

def readItem : (fuel : Nat) → List Char → Items × List Char
  | 0, _ => (.cut, [])
  | fuel + 1, cs =>
    let (value, rest) := readValue fuel cs
    let (items, rest) := readItems fuel false rest
    (.cons value items, rest)

def readMembers : (fuel : Nat) → (first : Bool) → List Char → Members × List Char
  | 0, _, _ => (.cut .broken, [])
  | fuel + 1, first, cs =>
    match skipGap cs with
    | '\x7D' :: rest => (.closed, rest)
    | c :: rest =>
      if first then readMember fuel (c :: rest)
      else if c = ',' then readMember fuel (skipGap rest)
      else (.cut .broken, [])
    | [] => (.cut .broken, [])

def readMember : (fuel : Nat) → List Char → Members × List Char
  | 0, _ => (.cut .broken, [])
  | fuel + 1, cs =>
    match cs with
    | '"' :: rest =>
      match readText rest with
      | none => (.cut .broken, [])
      | some (name, rest) =>
        match skipGap rest with
        | ':' :: rest =>
          let (value, rest) := readValue fuel rest
          let (members, rest) := readMembers fuel false rest
          (.cons name value members, rest)
        | _ => (.cons name .broken (.cut .broken), [])
    | _ => (.cut (readValue fuel cs).1, [])

end

/-- A whole JSON text: its value, and whether nothing but white space follows. -/
structure Document where
  root : Doc
  complete : Bool

def Document.ofString (s : String) : Document :=
  let cs := s.toList
  let (root, rest) := readValue (3 * cs.length + 3) cs
  ⟨root, (skipGap rest).isEmpty⟩

end MailMerge.Json
