/-! # Occurrences

Whether one run of letters occurs inside another one, and where it does so first.
-/

namespace MailMerge

variable {α : Type} [BEq α] [LawfulBEq α]

def occursIn (w : List α) : List α → Bool
  | [] => w.isEmpty
  | c :: cs => w.isPrefixOf (c :: cs) || occursIn w cs

theorem occursIn_iff {w cs : List α} : occursIn w cs = true ↔ w <:+: cs := by
  induction cs with
  | nil => simp [occursIn]
  | cons c cs ih => simp [occursIn, ih, List.infix_cons_iff]

/-- The number of letters in front of the first occurrence of `w`. -/
def position? (w : List α) : List α → Option Nat
  | [] => if w.isEmpty then some 0 else none
  | c :: cs => if w.isPrefixOf (c :: cs) then some 0 else (position? w cs).map (· + 1)

theorem position?_eq_some_zero {w cs : List α} (h : w <+: cs) : position? w cs = some 0 := by
  cases cs with
  | nil => simp [position?, List.prefix_nil.mp h]
  | cons c cs => simp [position?, h]

theorem position?_cons {w cs : List α} {c : α} (h : ¬ w <+: c :: cs) :
    position? w (c :: cs) = (position? w cs).map (· + 1) := by
  simp [position?, h]

theorem position?_eq_none_iff {w cs : List α} : position? w cs = none ↔ ¬ w <:+: cs := by
  induction cs with
  | nil => cases w <;> simp [position?]
  | cons c cs ih =>
    by_cases h : w <+: c :: cs
    · simp [position?_eq_some_zero h, h.isInfix]
    · rw [position?_cons h, Option.map_eq_none_iff, ih, List.infix_cons_iff,
        or_iff_right h]

/-- The first occurrence is one, and none starts before it. -/
theorem position?_eq_some {w cs : List α} {i : Nat} (h : position? w cs = some i) :
    w <+: cs.drop i ∧ ∀ j < i, ¬ w <+: cs.drop j := by
  induction cs generalizing i with
  | nil =>
    obtain ⟨rfl, rfl⟩ : w = [] ∧ 0 = i := by simpa [position?] using h
    exact ⟨List.prefix_refl [], fun j hj => absurd hj j.not_lt_zero⟩
  | cons c cs ih =>
    by_cases hp : w <+: c :: cs
    · obtain rfl : 0 = i := by simpa [position?_eq_some_zero hp] using h
      exact ⟨hp, fun j hj => absurd hj j.not_lt_zero⟩
    · rw [position?_cons hp, Option.map_eq_some_iff] at h
      obtain ⟨k, hk, rfl⟩ := h
      obtain ⟨hfirst, hnone⟩ := ih hk
      refine ⟨hfirst, fun j hj => ?_⟩
      cases j with
      | zero => exact hp
      | succ j => exact hnone j (Nat.lt_of_succ_lt_succ hj)

end MailMerge
