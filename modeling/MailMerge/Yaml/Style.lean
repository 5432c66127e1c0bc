import MailMerge.Decimal.Binary64
import MailMerge.Text.Hexadecimal
import MailMerge.Yaml.Character

/-! # Written YAML texts

How a text is written as the value of a key: plain if it stands for itself that way, as a block of
lines if it holds a line feed, and between quotes otherwise.
-/

namespace MailMerge.Yaml

def isNull (cs : List Char) : Bool :=
  ["", "~", "null", "Null", "NULL"].contains (String.ofList cs)

def isBool (cs : List Char) : Bool :=
  ["true", "True", "TRUE", "false", "False", "FALSE"].contains (String.ofList cs)

def isInfinityOrNaN (cs : List Char) : Bool :=
  [".inf", ".Inf", ".INF", "+.inf", "+.Inf", "+.INF", "-.inf", "-.Inf", "-.INF", ".nan", ".NaN",
    ".NAN"].contains (String.ofList cs)

def unsigned (cs : List Char) : List Char :=
  match cs with
  | '+' :: rest => rest
  | '-' :: rest => rest
  | _ => cs

/-- Digits after a leading zero, which make no number. -/
def isPadded (cs : List Char) : Bool :=
  match unsigned cs with
  | '0' :: d :: ds => (d :: ds).all Char.isDigit
  | _ => false

def digitsValue? (base : Nat) (cs : List Char) : Option Nat := do
  if cs.isEmpty then none
  cs.foldlM (fun n c => do
    let d ← Hexadecimal.value? c
    if d < base then some (n * base + d) else none) 0

/-- A number after `0x`, `0o` or `0b` that fits into 128 bits, with its sign. -/
def isPrefixedInteger (cs : List Char) : Bool :=
  let value? :=
    match unsigned cs with
    | '0' :: 'x' :: ds => digitsValue? 16 ds
    | '0' :: 'o' :: ds => digitsValue? 8 ds
    | '0' :: 'b' :: ds => digitsValue? 2 ds
    | _ => none
  value?.any fun n => decide (n ≤ if cs.head? = some '-' then Nat.pow 2 127 else Nat.pow 2 128 - 1)

def exponent? (cs : List Char) : Option Int :=
  match cs with
  | [] => some 0
  | e :: rest =>
    if e = 'e' ∨ e = 'E' then do
      let n ← digitsValue? 10 (unsigned rest)
      return if rest.head? = some '-' then -n else n
    else none

/-- A decimal number that is finite as binary floating point number. -/
def isFiniteDecimal (cs : List Char) : Bool :=
  let body := unsigned cs
  let whole := body.takeWhile Char.isDigit
  let rest := body.dropWhile Char.isDigit
  let (fraction, rest) :=
    match rest with
    | '.' :: r => (r.takeWhile Char.isDigit, r.dropWhile Char.isDigit)
    | r => ([], r)
  match digitsValue? 10 (whole ++ fraction), exponent? rest with
  | some n, some e => (Binary64.ofDecimal? n (e - fraction.length)).isSome
  | _, _ => false

/-- Written plain, the text would stand for something other than itself, or look as if it did. -/
def looksTyped (cs : List Char) : Bool :=
  isNull cs || isBool cs || isPadded cs || isPrefixedInteger cs || isInfinityOrNaN cs ||
    isFiniteDecimal cs

def isAnyBreak (c : Char) : Bool := isBreak c || c == '\r' || c == nextLine

def endsWord (c : Option Char) : Bool := c.all fun c => isTabOrSpace c || isAnyBreak c

def anyNeighbours (p : Char → Char → Bool) (cs : List Char) : Bool :=
  (cs.zip cs.tail).any fun n => p n.1 n.2

def startsIndicator (cs : List Char) : Bool :=
  cs.take 3 == ['-', '-', '-'] || cs.take 3 == ['.', '.', '.'] ||
    match cs with
    | [] => false
    | c :: rest =>
      "#,[]\x7B\x7D&*!|>\x27\"%@\x60".toList.contains c ||
        ((c == '?' || c == ':' || c == '-') && endsWord rest.head?)

/-- After its first character the text holds a colon that ends a word or a hash that begins one. -/
def hasIndicator (cs : List Char) : Bool :=
  anyNeighbours (fun b c => c == '#' && endsWord (some b)) cs ||
    anyNeighbours (fun c d => c == ':' && endsWord (some d)) cs.tail ||
    (decide (1 < cs.length) && cs.getLast? == some ':')

/-- A space stands in front of the end of a line, or a character that is not printable. -/
def needsEscapes (cs : List Char) : Bool :=
  anyNeighbours (fun b c => b == ' ' && isAnyBreak c) cs || cs.any fun c => !isPrintable c

def isPlainAllowed (cs : List Char) : Bool :=
  let isEdge (c : Char) : Bool := c == ' ' || isAnyBreak c
  !(startsIndicator cs || hasIndicator cs || needsEscapes cs || cs.any isAnyBreak ||
    cs.head?.any isEdge || cs.getLast?.any isEdge)

/-- No line begins with a space. -/
def isSingleAllowed (cs : List Char) : Bool :=
  !(needsEscapes cs || anyNeighbours (fun b c => isAnyBreak b && c == ' ') cs)

def isBlockAllowed (cs : List Char) : Bool :=
  !(needsEscapes cs || cs.getLast? == some ' ')

inductive Style
  | plain
  | single
  | double
  | block
  deriving DecidableEq, Repr

def Style.of (cs : List Char) : Style :=
  if cs.contains '\n' then (if isBlockAllowed cs then .block else .double)
  else if !looksTyped cs && isPlainAllowed cs then .plain
  else if isSingleAllowed cs then .single
  else .double

def spaces (n : Nat) : List Char := List.replicate n ' '

/-- The text between single quotes: a quote is written twice, and a line goes on after
`indent` spaces. `fresh` tells that a line begins. -/
def writeSingle (indent : Nat) (fresh : Bool) : List Char → List Char
  | [] => (if fresh then spaces indent else []) ++ ['\x27']
  | c :: cs =>
    if isBreak c then c :: writeSingle indent true cs
    else if c = ' ' then c :: writeSingle indent fresh cs
    else
      (if fresh then spaces indent else []) ++ (if c = '\x27' then [c, c] else [c]) ++
        writeSingle indent false cs

def escapeChar (c : Char) : List Char :=
  let letter? : Option Char :=
    match c with
    | '\x00' => some '0'
    | '\x07' => some 'a'
    | '\x08' => some 'b'
    | '\t' => some 't'
    | '\n' => some 'n'
    | '\x0B' => some 'v'
    | '\x0C' => some 'f'
    | '\r' => some 'r'
    | '\x1B' => some 'e'
    | '"' => some '"'
    | '\\' => some '\\'
    | '\u0085' => some 'N'
    | '\u2028' => some 'L'
    | '\u2029' => some 'P'
    | _ => none
  let digits (size : Nat) := Hexadecimal.write Hexadecimal.upper size c.toNat
  match letter? with
  | some letter => ['\\', letter]
  | none =>
    if isPrintable c then [c]
    else if c.toNat ≤ 0xFF then '\\' :: 'x' :: digits 2
    else if c.toNat ≤ 0xFFFF then '\\' :: 'u' :: digits 4
    else '\\' :: 'U' :: digits 8

/-- The signs after the mark of a block: the indentation if it could be mistaken, and what is to
be done with the ends of lines at the end. -/
def blockSigns (cs : List Char) : List Char :=
  (if cs.head?.any fun c => c == ' ' || isBreak c then ['2'] else []) ++
    match cs.reverse with
    | [] => ['-']
    | [c] => if isBreak c then ['+'] else ['-']
    | c :: d :: _ => if !isBreak c then ['-'] else if isBreak d then ['+'] else []

def writeLines (indent : Nat) (fresh : Bool) : List Char → List Char
  | [] => []
  | c :: cs =>
    if isBreak c then c :: writeLines indent true cs
    else (if fresh then spaces indent else []) ++ c :: writeLines indent false cs

def writeText (indent : Nat) (s : String) : List Char :=
  let cs := s.toList
  match Style.of cs with
  | .plain => cs ++ ['\n']
  | .single => '\x27' :: writeSingle indent false cs ++ ['\n']
  | .double => '"' :: cs.flatMap escapeChar ++ ['"', '\n']
  | .block =>
    ['|'] ++ blockSigns cs ++ ['\n'] ++ writeLines indent true cs ++
      if cs.getLast?.any isBreak then [] else ['\n']

end MailMerge.Yaml
