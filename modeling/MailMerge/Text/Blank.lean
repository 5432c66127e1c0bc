/-! # White space

The Unicode white space characters, and the texts that hold nothing else. A text counts as
a value only if it is not blank.
-/

namespace MailMerge

/-- The code points with the Unicode property White_Space, as closed ranges in rising order. -/
def spaceRanges : List (Nat × Nat) :=
  [(0x9, 0xD), (0x20, 0x20), (0x85, 0x85), (0xA0, 0xA0), (0x1680, 0x1680), (0x2000, 0x200A),
    (0x2028, 0x2029), (0x202F, 0x202F), (0x205F, 0x205F), (0x3000, 0x3000)]

def inRanges (ranges : List (Nat × Nat)) (n : Nat) : Bool :=
  ranges.any fun r => decide (r.1 ≤ n) && decide (n ≤ r.2)

def isSpace (c : Char) : Bool := inRanges spaceRanges c.toNat

/-- No character besides white space; the empty text is blank too. -/
def isBlank (s : String) : Bool := s.toList.all isSpace

def hasOuterSpace (s : String) : Bool :=
  (s.toList.head?.any isSpace) || (s.toList.getLast?.any isSpace)

theorem inRanges_iff {ranges : List (Nat × Nat)} {n : Nat} :
    inRanges ranges n = true ↔ ∃ r ∈ ranges, r.1 ≤ n ∧ n ≤ r.2 := by
  simp [inRanges]

theorem isBlank_iff {s : String} : isBlank s = true ↔ ∀ c ∈ s.toList, isSpace c = true := by
  simp [isBlank]

end MailMerge
