/-! # Fields

A list cut at every occurrence of a separator. The fields never hold the separator, and joining
them again gives the list back.
-/

namespace MailMerge

variable {α : Type} [DecidableEq α]

/-- The fields between the occurrences of `sep`; one more than there are occurrences. -/
def fields (sep : α) : List α → List (List α)
  | [] => [[]]
  | c :: cs =>
    if c = sep then [] :: fields sep cs
    else
      match fields sep cs with
      | [] => [[c]]
      | w :: ws => (c :: w) :: ws

theorem fields_ne_nil (sep : α) (cs : List α) : fields sep cs ≠ [] := by
  cases cs with
  | nil => simp [fields]
  | cons c cs =>
    rw [fields]
    split
    · simp
    · split <;> simp

theorem fields_cons_self (sep : α) (cs : List α) :
    fields sep (sep :: cs) = [] :: fields sep cs := by simp [fields]

theorem fields_cons_of_ne {sep c : α} (h : c ≠ sep) (cs : List α) :
    ∃ w ws, fields sep cs = w :: ws ∧ fields sep (c :: cs) = (c :: w) :: ws := by
  cases hf : fields sep cs with
  | nil => exact absurd hf (fields_ne_nil sep cs)
  | cons w ws => exact ⟨w, ws, rfl, by simp [fields, h, hf]⟩

theorem fields_of_not_mem {sep : α} {cs : List α} (h : sep ∉ cs) : fields sep cs = [cs] := by
  induction cs with
  | nil => rfl
  | cons c cs ih =>
    simp only [List.mem_cons, not_or] at h
    simp [fields, Ne.symm h.1, ih h.2]

theorem fields_append_cons {sep : α} {cs : List α} (h : sep ∉ cs) (rest : List α) :
    fields sep (cs ++ sep :: rest) = cs :: fields sep rest := by
  induction cs with
  | nil => exact fields_cons_self sep rest
  | cons c cs ih =>
    simp only [List.mem_cons, not_or] at h
    simp [fields, Ne.symm h.1, ih h.2]

theorem not_mem_of_mem_fields {sep : α} {cs w : List α} (h : w ∈ fields sep cs) : sep ∉ w := by
  induction cs generalizing w with
  | nil => simp_all [fields]
  | cons c cs ih =>
    by_cases hc : c = sep
    · subst hc
      rw [fields_cons_self, List.mem_cons] at h
      rcases h with rfl | h
      · simp
      · exact ih h
    · obtain ⟨v, vs, hv, hcs⟩ := fields_cons_of_ne hc cs
      rw [hcs, List.mem_cons] at h
      rcases h with rfl | h
      · simp only [List.mem_cons, not_or]
        exact ⟨Ne.symm hc, ih (hv ▸ List.mem_cons_self)⟩
      · exact ih (hv ▸ List.mem_cons_of_mem _ h)

end MailMerge
