import MailMerge.Fragments

/-! # Substitution

A document is cut, from left to right, into letters and tokens; each token then gives way to the
value of its placeholder. Values are inserted as they are and never looked at again.
-/

namespace MailMerge

/-- A piece of a document: a letter kept as it is, or a token. -/
inductive Piece
  | letter (c : Char)
  | slot (p : Placeholder)
  deriving DecidableEq, Repr

namespace Piece

def source : Piece → List Char
  | letter c => [c]
  | slot p => p.tokenChars

def fill (f : Fragments) : Piece → List Char
  | letter c => [c]
  | slot p => (f.textFor p).toList

end Piece

/-- Cuts the document after its first `skip` characters, which belong to a token already taken.
At each position a token is taken if one starts there, and a letter otherwise. -/
def cut : (skip : Nat) → List Char → List Piece
  | _, [] => []
  | skip + 1, _ :: cs => cut skip cs
  | 0, c :: cs =>
    match Placeholder.startOf? (c :: cs) with
    | some p => .slot p :: cut (p.tokenChars.length - 1) cs
    | none => .letter c :: cut 0 cs

def pieces (html : String) : List Piece := cut 0 html.toList

/-- The document with every token replaced by the value of its placeholder. -/
def substitute (html : String) (f : Fragments) : String :=
  String.ofList ((pieces html).flatMap (Piece.fill f))

theorem cut_eq_cut_drop (skip : Nat) (cs : List Char) : cut skip cs = cut 0 (cs.drop skip) := by
  induction skip generalizing cs with
  | zero => rfl
  | succ skip ih =>
    cases cs with
    | nil => rfl
    | cons c cs => simpa [cut] using ih cs

@[simp] theorem cut_nil (skip : Nat) : cut skip [] = [] := by cases skip <;> rfl

theorem cut_of_startOf?_eq_some {cs : List Char} {p : Placeholder}
    (h : Placeholder.startOf? cs = some p) :
    cut 0 cs = .slot p :: cut 0 (cs.drop p.tokenChars.length) := by
  cases cs with
  | nil =>
    have := Placeholder.startOf?_eq_some_iff.mp h
    exact absurd (List.prefix_nil.mp this) p.tokenChars_ne_nil
  | cons c cs =>
    have hl : p.tokenChars.length = (p.tokenChars.length - 1) + 1 := by cases p <;> rfl
    rw [cut, h, hl, List.drop_succ_cons]
    simp only [cut_eq_cut_drop (p.tokenChars.length - 1) cs]

theorem cut_of_startOf?_eq_none {c : Char} {cs : List Char}
    (h : Placeholder.startOf? (c :: cs) = none) : cut 0 (c :: cs) = .letter c :: cut 0 cs := by
  rw [cut, h]

end MailMerge
