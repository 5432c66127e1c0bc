import MailMerge.Json.Document

/-! # Written JSON

The text of a document, on one line or with one item a line. Besides quotes, backslashes and
control characters every character of a text is written as it is.
-/

namespace MailMerge.Json

def quoteChar (c : Char) : List Char :=
  if c = '"' ∨ c = '\\' then ['\\', c]
  else if c = '\x08' then ['\\', 'b']
  else if c = '\x0c' then ['\\', 'f']
  else if c = '\n' then ['\\', 'n']
  else if c = '\r' then ['\\', 'r']
  else if c = '\t' then ['\\', 't']
  else if c.toNat < 0x20 then ['\\', 'u'] ++ Hexadecimal.write Hexadecimal.lower 4 c.toNat
  else [c]

def quote (s : String) : List Char := '"' :: (s.toList.flatMap quoteChar ++ ['"'])

def Number.toChars (n : Number) : List Char :=
  let digits (ds : List Nat) := ds.map Nat.digitChar
  (if n.negative then ['-'] else []) ++ digits n.whole ++
    (if n.fraction.isEmpty then [] else '.' :: digits n.fraction) ++
    match n.exponent with
    | none => []
    | some (isNegative, ds) => 'e' :: (if isNegative then ['-'] else []) ++ digits ds

def Doc.leaf : Doc → List Char
  | .null => ['n', 'u', 'l', 'l']
  | .bool true => ['t', 'r', 'u', 'e']
  | .bool false => ['f', 'a', 'l', 's', 'e']
  | .number n => n.toChars
  | .text s => quote (s.getD "")
  | _ => []

mutual

/-- The document on one line. What breaks off is not closed. -/
def Doc.compact : Doc → List Char
  | .array items => '[' :: items.compact true
  | .object members => '\x7B' :: members.compact true
  | d => d.leaf

def Items.compact (first : Bool) : Items → List Char
  | .closed => [']']
  | .cut => []
  | .cons head tail => (if first then [] else [',']) ++ head.compact ++ tail.compact false

def Members.compact (first : Bool) : Members → List Char
  | .closed => ['\x7D']
  | .cut name => name.compact
  | .cons name value tail =>
    (if first then [] else [',']) ++ quote (name.getD "") ++ ':' :: value.compact ++
      tail.compact false

end

def newLine (depth : Nat) : List Char := '\n' :: List.replicate (2 * depth) ' '

mutual

/-- The document with every item and every member on a line of its own. -/
def Doc.pretty (depth : Nat) : Doc → List Char
  | .array .closed => ['[', ']']
  | .array items => '[' :: items.pretty (depth + 1) true
  | .object .closed => ['\x7B', '\x7D']
  | .object members => '\x7B' :: members.pretty (depth + 1) true
  | d => d.leaf

def Items.pretty (depth : Nat) (first : Bool) : Items → List Char
  | .closed => newLine (depth - 1) ++ [']']
  | .cut => []
  | .cons head tail =>
    (if first then [] else [',']) ++ newLine depth ++ head.pretty depth ++ tail.pretty depth false

def Members.pretty (depth : Nat) (first : Bool) : Members → List Char
  | .closed => newLine (depth - 1) ++ ['\x7D']
  | .cut _ => []
  | .cons name value tail =>
    (if first then [] else [',']) ++ newLine depth ++ quote (name.getD "") ++ [':', ' '] ++
      value.pretty depth ++ tail.pretty depth false

end

def Members.ofList : List (String × Doc) → Members
  | [] => .closed
  | (name, value) :: rest => .cons (some name) value (ofList rest)

def Items.ofList : List Doc → Items
  | [] => .closed
  | value :: rest => .cons value (ofList rest)

namespace Doc

def record (members : List (String × Doc)) : Doc := object (.ofList members)

def list (items : List Doc) : Doc := array (.ofList items)

def ofString (s : String) : Doc := text (some s)

def ofOption (s : Option String) : Doc := (s.map ofString).getD null

def print (d : Doc) : String := String.ofList d.compact

def printPretty (d : Doc) : String := String.ofList (d.pretty 0)

end Doc

end MailMerge.Json
