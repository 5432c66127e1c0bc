import MailMerge.Text.Utf8

/-! # Cutting texts

A text in memory is a run of bytes, and a place in it is the number of bytes in front of it. Not
every place will do for a cut: within a character it would leave two runs of bytes that are no
texts, so it is refused there, and what asked for it comes to nothing. A computation that cuts
keeps every cut it asks for beside its result.
-/

namespace MailMerge

namespace Utf8

def ofChars (cs : List Char) : Bytes := cs.flatMap String.utf8EncodeChar

/-- Whether a text may be cut behind its first `i` bytes: at either end of it, and in front of a
byte that does not continue a character. -/
def isBoundary (b : Bytes) (i : Nat) : Bool :=
  i == 0 || i == b.length || b[i]?.any fun x => !isTail x

@[simp] theorem ofChars_nil : ofChars [] = [] := rfl

@[simp] theorem ofChars_cons (c : Char) (cs : List Char) :
    ofChars (c :: cs) = String.utf8EncodeChar c ++ ofChars cs := List.flatMap_cons

@[simp] theorem ofChars_append (cs ds : List Char) :
    ofChars (cs ++ ds) = ofChars cs ++ ofChars ds := List.flatMap_append

end Utf8

/-- A part of a text, and how many bytes of the text stand in front of it. -/
structure Stretch where
  start : Nat
  bytes : Bytes
  deriving DecidableEq, Repr

/-- A place to cut a stretch at: behind the first `offset` of its bytes. -/
structure Cut where
  stretch : Stretch
  offset : Nat
  deriving DecidableEq, Repr

namespace Cut

def position (c : Cut) : Nat := c.stretch.start + c.offset

def front (c : Cut) : Stretch := ⟨c.stretch.start, c.stretch.bytes.take c.offset⟩

def back (c : Cut) : Stretch := ⟨c.position, c.stretch.bytes.drop c.offset⟩

end Cut

/-- The cuts that a computation asks for, in turn, and its result if none of them is refused. -/
structure Cutting (α : Type) where
  cuts : List Cut
  result? : Option α
  deriving Repr

/-- What a round of a scan comes to: the state in which the next round starts, or the answer. -/
inductive Round (σ α : Type)
  | next (s : σ)
  | answer (a : α)

namespace Cutting

variable {σ α β : Type}

instance : Monad Cutting where
  pure a := ⟨[], some a⟩
  bind m f :=
    match m.result? with
    | none => ⟨m.cuts, none⟩
    | some a => ⟨m.cuts ++ (f a).cuts, (f a).result?⟩

def cutAt (s : Stretch) (offset : Nat) : Cutting Cut where
  cuts := [⟨s, offset⟩]
  result? := if Utf8.isBoundary s.bytes offset then some ⟨s, offset⟩ else none

def slice (s : Stretch) (i j : Nat) : Cutting Stretch := do
  let upTo ← cutAt s j
  let rest ← cutAt upTo.front i
  return rest.back

/-- Round after round, until one answers. A round that leaves no less than it found would be
repeated for ever: it comes to nothing. -/
def rounds (left : σ → Nat) (round : σ → Cutting (Round σ α)) (s : σ) : Cutting α := do
  match ← round s with
  | .answer a => return a
  | .next s' => if left s' < left s then rounds left round s' else ⟨[], none⟩
termination_by left s

theorem bind_of_result? {m : Cutting α} {a : α} (h : m.result? = some a)
    (f : α → Cutting β) : m >>= f = ⟨m.cuts ++ (f a).cuts, (f a).result?⟩ := by
  show (match m.result? with | none => _ | some a => _) = _
  rw [h]

end Cutting

end MailMerge
