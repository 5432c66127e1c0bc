import MailMerge.Text.Utf8
import MailMerge.Yaml.Scalar

/-! # Tokens of YAML

A file cut into tokens. Indentation turns into tokens of its own: a collection opens where
something stands further in than before and closes where something stands further out. Whether
a text is a key shows only at the colon after it, so the tokens that open a mapping are put in
front of tokens that have been read already.
-/

namespace MailMerge.Yaml

inductive Token
  | version (major minor : Nat)
  | handle (name : List Char) (tag : Bytes)
  | documentStart
  | documentEnd
  | blockSequence
  | blockMapping
  | blockEnd
  | flowSequence
  | flowSequenceEnd
  | flowMapping
  | flowMappingEnd
  | blockEntry
  | flowEntry
  | key
  | value
  | alias (name : List Char)
  | anchor (name : List Char)
  | tag (handle : List Char) (suffix : Bytes)
  | scalar (isPlain : Bool) (text : List Char)
  deriving DecidableEq, Repr

structure Cursor where
  rest : List Char
  line : Nat := 0
  column : Nat := 0

namespace Cursor

def after (c : Char) (p : Cursor) : Cursor :=
  if isBreak c then { p with line := p.line + 1, column := 0 }
  else { p with column := p.column + 1 }

def moveTo (p : Cursor) (rest : List Char) : Cursor :=
  let passed := p.rest.take (p.rest.length - rest.length)
  { passed.foldl (fun q c => q.after c) p with rest }

def drop (p : Cursor) (n : Nat) : Cursor := p.moveTo (p.rest.drop n)

end Cursor

/-- A token that may turn out to be a key, if a colon follows it soon enough. -/
structure PendingKey where
  position : Nat
  line : Nat
  column : Nat
  /-- It stands where only a key can stand. -/
  required : Bool

structure Scanner where
  cursor : Cursor
  tokens : List Token := []
  /-- The columns of the open block collections, innermost first. -/
  indents : List Nat := []
  /-- The pending keys, one for the block and one for every open bracket, innermost first. -/
  keys : List (Option PendingKey) := [none]
  /-- A key or a block collection may start here. -/
  allowed : Bool := true

namespace Scanner

def isFlow (s : Scanner) : Bool := decide (1 < s.keys.length)

def push (s : Scanner) (t : Token) (size : Nat := 0) : Scanner :=
  { s with tokens := s.tokens ++ [t], cursor := s.cursor.drop size }

def allow (s : Scanner) (allowed : Bool) : Scanner := { s with allowed }

/-- Gives up the innermost pending key; an error if one is required. -/
def dropKey (s : Scanner) : Option Scanner :=
  if s.keys.head?.join.any PendingKey.required then none
  else some { s with keys := none :: s.keys.tail }

def saveKey (s : Scanner) : Option Scanner :=
  if s.allowed then do
    let required := !s.isFlow && s.indents.head? == some s.cursor.column
    let s ← s.dropKey
    let key : PendingKey := ⟨s.tokens.length, s.cursor.line, s.cursor.column, required⟩
    return { s with keys := some key :: s.keys.tail }
  else some s

def keyLimit : Nat := 1024

def isStale (s : Scanner) (k : PendingKey) : Bool :=
  decide (k.line < s.cursor.line) || decide (k.column + keyLimit < s.cursor.column)

def dropStale (s : Scanner) : Option Scanner :=
  if s.keys.any fun k => k.any fun k => s.isStale k && k.required then none
  else some { s with keys := s.keys.map fun k => k.filter fun k => !s.isStale k }

/-- Closes the block collections that lie further in than `column`; all of them if there is
none. -/
def unroll (s : Scanner) (column : Option Nat) : Scanner :=
  if s.isFlow then s
  else
    let isInner (n : Nat) : Bool := column.all fun c => decide (c < n)
    { s with
      tokens := s.tokens ++ (s.indents.takeWhile isInner).map fun _ => .blockEnd
      indents := s.indents.dropWhile isInner }

/-- Opens a block collection at `column`, if it lies further in than the innermost one. Its token
comes before the token at `position`. -/
def roll (s : Scanner) (column position : Nat) (t : Token) : Scanner :=
  if !s.isFlow && s.indents.head?.all fun n => decide (n < column) then
    { s with
      tokens := s.tokens.take position ++ t :: s.tokens.drop position
      indents := column :: s.indents }
  else s

def rollHere (s : Scanner) (t : Token) : Option Scanner :=
  if s.isFlow then some s
  else if s.allowed then some (s.roll s.cursor.column s.tokens.length t)
  else none

/-- Passes over white space, comments and ends of lines. `fuel` bounds the number of lines. -/
def skipGap : (fuel : Nat) → Scanner → Scanner
  | 0, s => s
  | fuel + 1, s =>
    let atMark := s.cursor.column = 0 && s.cursor.rest.head? == some byteOrderMark
    let s := if atMark then { s with cursor := s.cursor.drop 1 } else s
    let isSkipped (c : Char) : Bool := c == ' ' || (c == '\t' && (s.isFlow || !s.allowed))
    let rest := s.cursor.rest.dropWhile isSkipped
    let rest := if rest.head? == some '#' then rest.dropWhile fun c => !isBreak c else rest
    let s := { s with cursor := s.cursor.moveTo rest }
    if rest.head?.any isBreak then
      skipGap fuel { s with cursor := s.cursor.drop 1, allowed := s.allowed || !s.isFlow }
    else s

def readVersionNumber (cs : List Char) : Option (Nat × List Char) :=
  let digits := cs.takeWhile Char.isDigit
  if digits.isEmpty || decide (9 < digits.length) then none
  else some (digits.foldl (fun n c => n * 10 + (c.toNat - 48)) 0, cs.dropWhile Char.isDigit)

def readHandle (cs : List Char) : Option (List Char × List Char) :=
  match cs with
  | '!' :: rest =>
    let name := rest.takeWhile isNameChar
    match rest.dropWhile isNameChar with
    | '!' :: rest => some ('!' :: name ++ ['!'], rest)
    | rest => some ('!' :: name, rest)
  | _ => none

def utf8Size? (octet : Nat) : Option Nat :=
  if octet < 0x80 then some 1
  else if octet / 0x20 = 0x6 then some 2
  else if octet / 0x10 = 0xE then some 3
  else if octet / 0x8 = 0x1E then some 4
  else none

/-- A character of a tag. Commas and square brackets count only between angle brackets. -/
def isTagChar (verbatim : Bool) (c : Char) : Bool :=
  isNameChar c || ";/?:@&=+$.!~*\x27()".toList.contains c ||
    (verbatim && (c == ',' || c == '[' || c == ']'))

/-- The characters of a tag. `pending` counts the escaped bytes that are still to come of
a character. -/
def readTagChars (verbatim : Bool) (pending : Nat) : List Char → Option (Bytes × List Char)
  | '%' :: a :: b :: cs => do
    let octet ← Hexadecimal.read? [a, b]
    let left ←
      if pending = 0 then (utf8Size? octet).map (· - 1)
      else if octet / 0x40 = 0x2 then some (pending - 1) else none
    let (tag, rest) ← readTagChars verbatim left cs
    return (octet.toUInt8 :: tag, rest)
  | [] => if pending = 0 then some ([], []) else none
  | c :: cs =>
    if pending ≠ 0 ∨ c = '%' then none
    else if isTagChar verbatim c then do
      let (tag, rest) ← readTagChars verbatim 0 cs
      return (c.toNat.toUInt8 :: tag, rest)
    else some ([], c :: cs)

def readDirective (cs : List Char) : Option (Token × List Char) := do
  let name := cs.takeWhile isNameChar
  let rest := cs.dropWhile isNameChar
  if name.isEmpty || !startsGap rest then none
  let rest := rest.dropWhile isTabOrSpace
  if name = "YAML".toList then
    let (major, rest) ← readVersionNumber rest
    match rest with
    | '.' :: rest => do
      let (minor, rest) ← readVersionNumber rest
      return (.version major minor, rest)
    | _ => none
  else if name = "TAG".toList then
    let (handle, rest) ← readHandle rest
    if handle ≠ ['!'] ∧ (handle.length = 1 ∨ handle.getLast? ≠ some '!') then none
    if !rest.head?.any isTabOrSpace then none
    let (tag, rest) ← readTagChars true 0 (rest.dropWhile isTabOrSpace)
    if tag.isEmpty || !startsGap rest then none
    return (.handle handle tag, rest)
  else none

def readAnchor (cs : List Char) : Option (List Char × List Char) :=
  let name := cs.takeWhile isNameChar
  let rest := cs.dropWhile isNameChar
  if name.isEmpty || !(startsGap rest || rest.head?.any fun c => "?:,]\x7D%@\x60".toList.contains c)
  then none
  else some (name, rest)

/-- A tag: handle and suffix, or all of it between angle brackets. A lone exclamation mark is a
suffix. -/
def readTag (flow : Bool) (cs : List Char) : Option (Token × List Char) := do
  let (t, rest) ←
    match cs with
    | '!' :: '<' :: rest => do
      let (tag, rest) ← readTagChars true 0 rest
      match tag, rest with
      | _ :: _, '>' :: rest => some (Token.tag [] tag, rest)
      | _, _ => none
    | _ => do
      let (handle, rest) ← readHandle cs
      let (tag, rest') ← readTagChars false 0 rest
      if decide (1 < handle.length) && handle.getLast? == some '!' then
        if tag.isEmpty then none else some (Token.tag handle tag, rest')
      else
        let suffix := handle.tail.map (fun c => c.toNat.toUInt8) ++ tag
        if suffix.isEmpty then some (Token.tag [] (Utf8.encode "!"), rest')
        else some (Token.tag ['!'] suffix, rest')
  if startsGap rest || (flow && rest.head? == some ',') then return (t, rest) else none

def pushTo (s : Scanner) (t : Token) (rest : List Char) : Scanner :=
  { s with tokens := s.tokens ++ [t], cursor := s.cursor.moveTo rest }

/-- Ends all block collections in front of something that stands outside of them. -/
def leaveBlocks (s : Scanner) : Option Scanner := do
  return (← (s.unroll none).dropKey).allow false

def openBracket (s : Scanner) (t : Token) : Option Scanner := do
  let s ← s.saveKey
  return { s with keys := none :: s.keys, allowed := true }.push t 1

def closeBracket (s : Scanner) (t : Token) : Option Scanner := do
  let s ← s.dropKey
  return { s with keys := if s.isFlow then s.keys.tail else s.keys, allowed := false }.push t 1

/-- The colon in front of a value. What is pending becomes the key. -/
def pushValue (s : Scanner) : Option Scanner :=
  match s.keys.head?.join with
  | some k =>
    let tokens := s.tokens.take k.position ++ .key :: s.tokens.drop k.position
    let s := { s with tokens }.roll k.column k.position .blockMapping
    some ({ s with keys := none :: s.keys.tail, allowed := false }.push .value 1)
  | none => do
    let s ← s.rollHere .blockMapping
    return (s.allow !s.isFlow).push .value 1

/-- A token that may be a key and after which none may start. -/
def pushNode (s : Scanner) (t : Token × List Char) : Option Scanner := do
  return ((← s.saveKey).allow false).pushTo t.1 t.2

def startsPlain (s : Scanner) (c : Char) (cs : List Char) : Bool :=
  !(isGapChar c || "-?:,[]\x7B\x7D#&*!|>\x27\"%@\x60".toList.contains c) ||
    (c == '-' && !cs.head?.any isTabOrSpace) ||
    (!s.isFlow && (c == '?' || c == ':') && !startsGap cs)

/-- Reads a plain text. If it ends with a line, a key may follow. -/
def pushPlain (s : Scanner) : Option Scanner := do
  let t ← readPlain s.isFlow ((s.indents.head?.map (· + 1)).getD 0) s.cursor.column s.cursor.rest
  let s ← s.pushNode (.scalar true t.text, t.rest)
  return s.allow t.fresh

def pushBlock (s : Scanner) (literal : Bool) (cs : List Char) : Option Scanner := do
  let s ← s.dropKey
  let (text, rest) ← readBlock literal s.indents.head? cs
  return (s.allow true).pushTo (.scalar false text) rest

/-- Reads the token that starts with `c`, in front of which everything is settled. -/
def pushNext (s : Scanner) (c : Char) (cs : List Char) : Option Scanner :=
  let margin := s.cursor.column = 0
  if margin && c == '%' then do
    let s ← s.leaveBlocks
    let (t, rest) ← readDirective cs
    return s.pushTo t (← skipLineEnd rest)
  else if margin && isMarker (c :: cs) then do
    return (← s.leaveBlocks).push (if c = '-' then .documentStart else .documentEnd) 3
  else if c = '[' then s.openBracket .flowSequence
  else if c = '\x7B' then s.openBracket .flowMapping
  else if c = ']' then s.closeBracket .flowSequenceEnd
  else if c = '\x7D' then s.closeBracket .flowMappingEnd
  else if c = ',' then do
    return ((← s.dropKey).allow true).push .flowEntry 1
  else if c = '-' && startsGap cs then do
    return ((← (← s.rollHere .blockSequence).dropKey).allow true).push .blockEntry 1
  else if c = '?' && (s.isFlow || startsGap cs) then do
    let s ← (← s.rollHere .blockMapping).dropKey
    return (s.allow !s.isFlow).push .key 1
  else if c = ':' && (s.isFlow || startsGap cs) then s.pushValue
  else if c = '*' then do
    let (name, rest) ← readAnchor cs
    s.pushNode (.alias name, rest)
  else if c = '&' then do
    let (name, rest) ← readAnchor cs
    s.pushNode (.anchor name, rest)
  else if c = '!' then do s.pushNode (← readTag s.isFlow (c :: cs))
  else if c = '|' && !s.isFlow then s.pushBlock true cs
  else if c = '>' && !s.isFlow then s.pushBlock false cs
  else if c = '\x27' then do
    let (text, rest) ← readSingle cs
    s.pushNode (.scalar false text, rest)
  else if c = '"' then do
    let (text, rest) ← readDouble cs
    s.pushNode (.scalar false text, rest)
  else if s.startsPlain c cs then s.pushPlain
  else none

def scan : (fuel : Nat) → Scanner → Option (List Token)
  | 0, _ => none
  | fuel + 1, s => do
    let s ← (s.skipGap (s.cursor.rest.length + 1)).dropStale
    let s := s.unroll (some s.cursor.column)
    match s.cursor.rest with
    | [] => return (← s.leaveBlocks).tokens
    | c :: cs => scan fuel (← s.pushNext c cs)

end Scanner

def tokens? (cs : List Char) : Option (List Token) :=
  if cs.all isAllowed then
    let cs := unifyBreaks cs
    Scanner.scan (cs.length + 1) { cursor := { rest := cs } }
  else none

end MailMerge.Yaml
