import MailMerge.Text.Hexadecimal
import MailMerge.Yaml.Character

/-! # Texts in YAML

The four ways in which a text is written: plain, between single or double quotes, and as a block
of indented lines. Each reader takes the characters after the mark that opens the text and gives
the text and what follows it.
-/

namespace MailMerge.Yaml

/-- What a gap between two words stands for: a single line feed for a space, more of them for all
but the first, and white space within a line for itself. -/
def foldGap (gap : List Char) : List Char :=
  match gap.filter isBreak with
  | [] => gap
  | b :: bs => if b = '\n' then (if bs.isEmpty then [' '] else bs) else b :: bs

/-- The next word, which ends at a gap, at a colon that a value follows, and inside brackets also
at a mark. A colon directly in front of a mark is an error there. -/
def plainWord (flow : Bool) : List Char → Option (List Char × List Char)
  | [] => some ([], [])
  | c :: cs =>
    if isGapChar c then some ([], c :: cs)
    else if flow && c == ':' && cs.head?.any (fun d => d == '?' || isFlowMark d) then none
    else if c == ':' && startsGap cs || flow && isFlowMark c then some ([], c :: cs)
    else (plainWord flow cs).map fun r => (c :: r.1, r.2)

def hasEarlyTab (indent : Nat) : (fresh : Bool) → (column : Nat) → List Char → Bool
  | _, _, [] => false
  | fresh, column, c :: cs =>
    if isBreak c then hasEarlyTab indent true 0 cs
    else (fresh && decide (column < indent) && c == '\t') ||
      hasEarlyTab indent fresh (column + 1) cs

structure PlainText where
  text : List Char
  rest : List Char
  /-- The text was followed by the end of a line. -/
  fresh : Bool

/-- The words after a gap. Outside of brackets the text ends before a line that is indented less
than `indent`. `fuel` bounds the number of words. -/
def plainFrom (flow : Bool) (indent : Nat) :
    (fuel column : Nat) → (gap : List Char) → List Char → Option PlainText
  | 0, _, _, _ => none
  | fuel + 1, column, gap, cs =>
    if (column == 0 && isMarker cs) || cs.head? == some '#' then
      some ⟨[], cs, gap.any isBreak⟩
    else do
      let (word, rest) ← plainWord flow cs
      if word.isEmpty then return ⟨[], rest, gap.any isBreak⟩
      let start := foldGap gap ++ word
      let next := rest.takeWhile isGapChar
      let rest := rest.dropWhile isGapChar
      if next.isEmpty then return ⟨start, rest, false⟩
      let column := column + word.length
      if hasEarlyTab indent false column next then none
      let column := columnAfter column next
      if !flow && decide (column < indent) then return ⟨start, rest, next.any isBreak⟩
      let more ← plainFrom flow indent fuel column next rest
      return { more with text := start ++ more.text }

def readPlain (flow : Bool) (indent column : Nat) (cs : List Char) : Option PlainText :=
  plainFrom flow indent (cs.length + 1) column [] cs

/-- What ends a word between quotes: the closing quote, a gap, or an end of a line that is taken
back. -/
inductive WordEnd
  | quote
  | gap
  | joined
  deriving DecidableEq, Repr

structure QuotedWord where
  text : List Char
  ending : WordEnd
  rest : List Char

def QuotedWord.cons (c : Char) (w : QuotedWord) : QuotedWord := { w with text := c :: w.text }

/-- A word between single quotes; a quote in it is written twice. -/
def singleWord : List Char → Option QuotedWord
  | '\x27' :: '\x27' :: cs => (singleWord cs).map (.cons '\x27')
  | [] => some ⟨[], .gap, []⟩
  | c :: cs =>
    if c = '\x27' then some ⟨[], .quote, cs⟩
    else if isGapChar c then some ⟨[], .gap, c :: cs⟩
    else (singleWord cs).map (.cons c)

def hexChar? (digits : List Char) : Option Char := do
  let n ← Hexadecimal.read? digits
  if n.isValidChar then some (Char.ofNat n) else none

def escapedChar? (c : Char) : Option Char :=
  match c with
  | '0' => some '\x00'
  | 'a' => some '\x07'
  | 'b' => some '\x08'
  | 't' | '\t' => some '\t'
  | 'n' => some '\n'
  | 'v' => some '\x0B'
  | 'f' => some '\x0C'
  | 'r' => some '\r'
  | 'e' => some '\x1B'
  | ' ' | '"' | '/' | '\\' => some c
  | 'N' => some nextLine
  | '_' => some '\u00A0'
  | 'L' => some lineSeparator
  | 'P' => some paragraphSeparator
  | _ => none

def doubleWord : List Char → Option QuotedWord
  | [] => some ⟨[], .gap, []⟩
  | '\\' :: 'x' :: a :: b :: cs => do return (← doubleWord cs).cons (← hexChar? [a, b])
  | '\\' :: 'u' :: a :: b :: c :: d :: cs => do
    return (← doubleWord cs).cons (← hexChar? [a, b, c, d])
  | '\\' :: 'U' :: a :: b :: c :: d :: e :: f :: g :: h :: cs => do
    return (← doubleWord cs).cons (← hexChar? [a, b, c, d, e, f, g, h])
  | '\\' :: c :: cs =>
    if isBreak c then some ⟨[], .joined, cs⟩
    else do return (← doubleWord cs).cons (← escapedChar? c)
  | c :: cs =>
    if c = '"' then some ⟨[], .quote, cs⟩
    else if isGapChar c then some ⟨[], .gap, c :: cs⟩
    else if c = '\\' then none
    else (doubleWord cs).map (.cons c)

/-- The words up to the closing quote. `margin` tells that a line starts here; no mark of a
document may stand there. -/
def quotedFrom (word : List Char → Option QuotedWord) :
    (fuel : Nat) → (margin : Bool) → List Char → Option (List Char × List Char)
  | 0, _, _ => none
  | fuel + 1, margin, cs =>
    if cs.isEmpty || margin && isMarker cs then none
    else do
      let w ← word cs
      let gap := w.rest.takeWhile isGapChar
      let rest := w.rest.dropWhile isGapChar
      match w.ending with
      | .quote => some (w.text, w.rest)
      | .gap => do
        let (text, rest) ← quotedFrom word fuel (gap.getLast?.any isBreak) rest
        return (w.text ++ foldGap gap ++ text, rest)
      | .joined => do
        let (text, rest) ← quotedFrom word fuel (gap.getLast?.all isBreak) rest
        return (w.text ++ gap.filter isBreak ++ text, rest)

def readSingle (cs : List Char) : Option (List Char × List Char) :=
  quotedFrom singleWord (cs.length + 1) false cs

def readDouble (cs : List Char) : Option (List Char × List Char) :=
  quotedFrom doubleWord (cs.length + 1) false cs

/-- What happens to the ends of lines at the end of a block: none is kept, one, or all. -/
inductive Chomp
  | strip
  | clip
  | keep
  deriving DecidableEq, Repr

structure BlockHeader where
  chomp : Chomp := .clip
  indent : Option Nat := none
  deriving DecidableEq, Repr

def Chomp.ofChar? (c : Char) : Option Chomp :=
  if c = '+' then some keep else if c = '-' then some strip else none

/-- The signs of a header: a chomping sign and a digit other than zero, in either order. -/
def headerSigns (cs : List Char) : Option (BlockHeader × List Char) :=
  let digit? (c : Char) : Option Nat := if c.isDigit then some (c.toNat - 48) else none
  match cs with
  | [] => some (default, [])
  | a :: rest =>
    match Chomp.ofChar? a, digit? a with
    | some chomp, _ =>
      match rest.head?.bind digit? with
      | some 0 => none
      | some n => some (⟨chomp, some n⟩, rest.drop 1)
      | none => some (⟨chomp, none⟩, rest)
    | none, some 0 => none
    | none, some n =>
      match rest.head?.bind Chomp.ofChar? with
      | some chomp => some (⟨chomp, some n⟩, rest.drop 1)
      | none => some (⟨.clip, some n⟩, rest)
    | none, none => some (default, a :: rest)
where
  default : BlockHeader := {}

def skipLineEnd (cs : List Char) : Option (List Char) :=
  let rest := cs.dropWhile isTabOrSpace
  let rest := if rest.head? == some '#' then rest.dropWhile fun c => !isBreak c else rest
  match rest with
  | [] => some []
  | c :: cs => if isBreak c then some cs else none

structure BlockGap where
  breaks : List Char
  deepest : Nat
  column : Nat
  rest : List Char

/-- Empty lines and the indentation after them, as deep as `indent` says or as it goes. A tab in
the indentation is an error. -/
def blockGap (indent : Option Nat) (column deepest : Nat) : List Char → Option BlockGap
  | [] => some ⟨[], max deepest column, column, []⟩
  | c :: cs =>
    let inside := indent.all fun n => decide (column < n)
    if inside && c == ' ' then blockGap indent (column + 1) (max deepest (column + 1)) cs
    else if inside && c == '\t' then none
    else if isBreak c then
      (blockGap indent 0 (max deepest column) cs).map fun g => { g with breaks := c :: g.breaks }
    else some ⟨[], max deepest column, column, c :: cs⟩

/-- The lines of a block. `broken` is the end of the line before, `gap` what stands in front of
this line, and `blank` tells that the line before began with white space. -/
def blockLines (literal : Bool) (chomp : Chomp) (indent : Nat) :
    (fuel : Nat) → (broken : List Char) → (blank : Bool) → BlockGap →
      Option (List Char × List Char)
  | 0, _, _, _ => none
  | fuel + 1, broken, blank, gap =>
    if gap.column = indent && !gap.rest.isEmpty then do
      let isIndented := gap.rest.head?.any isTabOrSpace
      let line := gap.rest.takeWhile fun c => !isBreak c
      let rest := gap.rest.dropWhile fun c => !isBreak c
      let start :=
        if !literal && broken == ['\n'] && !blank && !isIndented then
          (if gap.breaks.isEmpty then [' '] else []) ++ gap.breaks
        else broken ++ gap.breaks
      let next ← blockGap (some indent) (if rest.isEmpty then 1 else 0) 0 (rest.drop 1)
      let (text, rest) ← blockLines literal chomp indent fuel (rest.take 1) isIndented next
      return (start ++ line ++ text, rest)
    else
      let ending :=
        match chomp with
        | .strip => []
        | .clip => broken
        | .keep => broken ++ gap.breaks
      some (ending, gap.rest)

/-- A block after its mark, inside of collections that are indented by less than `least`. -/
def readBlock (literal : Bool) (outer : Option Nat) (cs : List Char) :
    Option (List Char × List Char) := do
  let (header, rest) ← headerSigns cs
  let body ← skipLineEnd rest
  let least := (outer.map (· + 1)).getD 1
  let fixed := header.indent.map fun n => outer.getD 0 + n
  let first ← blockGap fixed 0 0 body
  let indent := fixed.getD (max first.deepest least)
  blockLines literal header.chomp indent (body.length + 1) [] false first

end MailMerge.Yaml
