/-! # Look-up by key

Lists of pairs read as finite maps: the value of a key is the one of its first pair. Where the
keys are distinct, that is the only one.
-/

namespace MailMerge.Keyed

variable {κ α β : Type} [BEq κ] [LawfulBEq κ]

theorem lookup_filter (keep : κ → Bool) (es : List (κ × α)) (k : κ) :
    (es.filter fun e => keep e.1).lookup k = if keep k then es.lookup k else none := by
  induction es with
  | nil => simp
  | cons e es ih =>
    obtain ⟨m, x⟩ := e
    by_cases hk : k = m
    · subst hk
      by_cases hkeep : keep k <;> simp [hkeep, ih]
    · have hb : (k == m) = false := by simpa using hk
      by_cases hkeep : keep m <;> simp [hkeep, List.lookup_cons, hb, ih]

theorem lookup_filter_ne [DecidableEq κ] (es : List (κ × α)) (k n : κ) :
    (es.filter fun e => e.1 ≠ k).lookup n = if n = k then none else es.lookup n := by
  rw [lookup_filter fun m => decide (m ≠ k)]
  by_cases h : n = k <;> simp [h]

theorem lookup_map_value (f : κ → α → β) (es : List (κ × α)) (k : κ) :
    (es.map fun e => (e.1, f e.1 e.2)).lookup k = (es.lookup k).map (f k) := by
  induction es with
  | nil => rfl
  | cons e es ih =>
    obtain ⟨m, x⟩ := e
    by_cases hk : k = m
    · subst hk
      simp
    · have hb : (k == m) = false := by simpa using hk
      simpa [List.lookup_cons, hb] using ih

theorem mem_iff_lookup {es : List (κ × α)} (hd : (es.map Prod.fst).Nodup) {k : κ} {x : α} :
    (k, x) ∈ es ↔ es.lookup k = some x := by
  induction es with
  | nil => simp
  | cons e es ih =>
    obtain ⟨m, y⟩ := e
    simp only [List.map_cons, List.nodup_cons, List.mem_map, Prod.exists, exists_and_right,
      exists_eq_right, not_exists] at hd
    by_cases hk : k = m
    · subst hk
      simp only [List.mem_cons, Prod.mk.injEq, true_and, List.lookup_cons, beq_self_eq_true,
        Option.some.injEq]
      constructor
      · rintro (rfl | h)
        · rfl
        · exact absurd h (hd.1 x)
      · rintro rfl
        exact Or.inl rfl
    · have hb : (k == m) = false := by simpa using hk
      simp [List.lookup_cons, hb, hk, ih hd.2]

end MailMerge.Keyed
