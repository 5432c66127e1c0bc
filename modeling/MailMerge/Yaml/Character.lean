import MailMerge.Text.Blank

/-! # Characters of YAML

The classes of characters that settings files are made of. Lines end in many ways, and all but
the two Unicode separators count as the same line feed.
-/

namespace MailMerge.Yaml

def lineSeparator : Char := '\u2028'

def paragraphSeparator : Char := '\u2029'

def nextLine : Char := '\u0085'

def byteOrderMark : Char := '\uFEFF'

def isAllowed (c : Char) : Bool :=
  c == '\t' || c == '\n' || c == '\r' || c == nextLine ||
    inRanges [(0x20, 0x7E), (0xA0, 0xD7FF), (0xE000, 0xFFFD), (0x10000, 0x10FFFF)] c.toNat

/-- A character that is written as it is. -/
def isPrintable (c : Char) : Bool :=
  c == '\n' ||
    (c != byteOrderMark &&
      inRanges [(0x20, 0x7E), (0xA0, 0xD7FF), (0xE000, 0xFFFD), (0x10000, 0x10FFFF)] c.toNat)

/-- Every end of a line as a line feed, except for the Unicode separators. -/
def unifyBreaks : List Char → List Char
  | [] => []
  | '\r' :: '\n' :: cs => '\n' :: unifyBreaks cs
  | c :: cs => (if c = '\r' ∨ c = nextLine then '\n' else c) :: unifyBreaks cs

def isBreak (c : Char) : Bool := c == '\n' || c == lineSeparator || c == paragraphSeparator

def isTabOrSpace (c : Char) : Bool := c == ' ' || c == '\t'

def isGapChar (c : Char) : Bool := isTabOrSpace c || isBreak c

def isNameChar (c : Char) : Bool := c.isAlphanum || c == '-' || c == '_'

/-- A character that parts the items of a collection in brackets. -/
def isFlowMark (c : Char) : Bool :=
  c == ',' || c == '[' || c == ']' || c == '\x7B' || c == '\x7D'

def startsGap (cs : List Char) : Bool := cs.head?.all isGapChar

def isMarker (cs : List Char) : Bool :=
  (cs.take 3 == ['-', '-', '-'] || cs.take 3 == ['.', '.', '.']) && startsGap (cs.drop 3)

def columnAfter (column : Nat) (cs : List Char) : Nat :=
  cs.foldl (fun n c => if isBreak c then 0 else n + 1) column

end MailMerge.Yaml
