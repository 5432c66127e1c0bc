import MailMerge.Keyed

/-! # Shelves

A shelf keeps values by name, in the order of the names. Two shelves with the same value under
every name are equal.
-/

namespace MailMerge

/-- Values by name; the names rise strictly. -/
structure Shelf (α : Type) where
  entries : List (String × α)
  sorted : entries.Pairwise fun a b => a.1 < b.1

namespace Shelf

variable {α : Type}

theorem lt_of_not_lt_of_ne {a b : String} (h : ¬ a < b) (hne : a ≠ b) : b < a :=
  Decidable.byContradiction fun hc =>
    hne (String.le_antisymm (String.not_lt.mp hc) (String.not_lt.mp h))

def insertEntry (name : String) (value : α) : List (String × α) → List (String × α)
  | [] => [(name, value)]
  | e :: es =>
    if name < e.1 then (name, value) :: e :: es
    else if name = e.1 then (name, value) :: es
    else e :: insertEntry name value es

theorem mem_insertEntry {name : String} {value : α} {es : List (String × α)} {e : String × α}
    (h : e ∈ insertEntry name value es) : e = (name, value) ∨ e ∈ es := by
  induction es with
  | nil => simpa [insertEntry] using h
  | cons x xs ih =>
    rw [insertEntry] at h
    split at h
    · simpa using h
    · split at h
      · rcases List.mem_cons.mp h with h | h
        · exact .inl h
        · exact .inr (List.mem_cons_of_mem _ h)
      · rcases List.mem_cons.mp h with h | h
        · exact .inr (h ▸ List.mem_cons_self)
        · rcases ih h with h | h
          · exact .inl h
          · exact .inr (List.mem_cons_of_mem _ h)

theorem sorted_insertEntry (name : String) (value : α) {es : List (String × α)}
    (h : es.Pairwise fun a b => a.1 < b.1) :
    (insertEntry name value es).Pairwise fun a b => a.1 < b.1 := by
  induction es with
  | nil => simp [insertEntry]
  | cons e es ih =>
    obtain ⟨he, hes⟩ := List.pairwise_cons.mp h
    rw [insertEntry]
    split
    · rename_i hlt
      refine List.pairwise_cons.mpr ⟨fun b hb => ?_, h⟩
      rcases List.mem_cons.mp hb with rfl | hb
      · exact hlt
      · exact String.lt_trans hlt (he b hb)
    · split
      · rename_i heq
        exact List.pairwise_cons.mpr ⟨fun b hb => heq ▸ he b hb, hes⟩
      · rename_i hlt hne
        refine List.pairwise_cons.mpr ⟨fun b hb => ?_, ih hes⟩
        rcases mem_insertEntry hb with rfl | hb
        · exact lt_of_not_lt_of_ne hlt hne
        · exact he b hb

def empty : Shelf α := ⟨[], .nil⟩

def insert (s : Shelf α) (name : String) (value : α) : Shelf α :=
  ⟨insertEntry name value s.entries, sorted_insertEntry name value s.sorted⟩

def erase (s : Shelf α) (name : String) : Shelf α :=
  ⟨s.entries.filter fun e => e.1 ≠ name, s.sorted.sublist List.filter_sublist⟩

def get? (s : Shelf α) (name : String) : Option α := s.entries.lookup name

def values (s : Shelf α) : List α := s.entries.map Prod.snd

/-- The shelf with these values; of two under one name the later counts. -/
def ofList (es : List (String × α)) : Shelf α :=
  es.foldl (fun s e => s.insert e.1 e.2) empty

theorem lookup_insertEntry (name : String) (value : α) {es : List (String × α)}
    (h : es.Pairwise fun a b => a.1 < b.1) (n : String) :
    (insertEntry name value es).lookup n = if n = name then some value else es.lookup n := by
  induction es with
  | nil =>
    by_cases hn : n = name
    · simp [insertEntry, hn]
    · have hb : (n == name) = false := by simpa using hn
      simp [insertEntry, List.lookup_cons, hn, hb]
  | cons e es ih =>
    obtain ⟨k, x⟩ := e
    obtain ⟨hk, hes⟩ := List.pairwise_cons.mp h
    rw [insertEntry]
    by_cases hn : n = name
    · subst hn
      split
      · simp
      · split
        · simp
        · rename_i hne
          have hb : (n == k) = false := by simpa using hne
          simpa [List.lookup_cons, hb] using ih hes
    · have hb : (n == name) = false := by simpa using hn
      split
      · simp [List.lookup_cons, hb]
      · split
        · rename_i heq
          subst heq
          simp [List.lookup_cons, hb]
        · simp only [List.lookup_cons, ih hes, if_neg hn]

@[simp] theorem get?_insert (s : Shelf α) (name n : String) (value : α) :
    (s.insert name value).get? n = if n = name then some value else s.get? n :=
  lookup_insertEntry name value s.sorted n

@[simp] theorem get?_erase (s : Shelf α) (name n : String) :
    (s.erase name).get? n = if n = name then none else s.get? n :=
  Keyed.lookup_filter_ne s.entries name n

@[simp] theorem get?_empty (n : String) : (empty : Shelf α).get? n = none := rfl

theorem distinct_of_sorted {es : List (String × α)} (h : es.Pairwise fun a b => a.1 < b.1) :
    (es.map Prod.fst).Nodup :=
  List.pairwise_map.mpr (h.imp fun {a b} hab (heq : a.1 = b.1) =>
    String.lt_irrefl b.1 (heq ▸ hab))

theorem mem_entries_iff {s : Shelf α} {n : String} {x : α} :
    (n, x) ∈ s.entries ↔ s.get? n = some x :=
  Keyed.mem_iff_lookup (distinct_of_sorted s.sorted)

/-- Strictly rising lists with the same members are equal. -/
theorem eq_of_mem_iff {xs ys : List (String × α)} (hx : xs.Pairwise fun a b => a.1 < b.1)
    (hy : ys.Pairwise fun a b => a.1 < b.1) (h : ∀ e, e ∈ xs ↔ e ∈ ys) : xs = ys := by
  induction xs generalizing ys with
  | nil =>
    cases ys with
    | nil => rfl
    | cons y ys => exact absurd ((h y).mpr List.mem_cons_self) (by simp)
  | cons x xs ih =>
    cases ys with
    | nil => exact absurd ((h x).mp List.mem_cons_self) (by simp)
    | cons y ys =>
      obtain ⟨hx₁, hx₂⟩ := List.pairwise_cons.mp hx
      obtain ⟨hy₁, hy₂⟩ := List.pairwise_cons.mp hy
      have hxy : x = y := by
        rcases List.mem_cons.mp ((h x).mp List.mem_cons_self) with hxy | hxy
        · exact hxy
        · rcases List.mem_cons.mp ((h y).mpr List.mem_cons_self) with hyx | hyx
          · exact hyx.symm
          · exact absurd (String.lt_trans (hy₁ x hxy) (hx₁ y hyx)) (String.lt_irrefl _)
      subst hxy
      rw [ih hx₂ hy₂]
      intro e
      constructor
      · intro he
        rcases List.mem_cons.mp ((h e).mp (List.mem_cons_of_mem _ he)) with rfl | he'
        · exact absurd (hx₁ _ he) (String.lt_irrefl _)
        · exact he'
      · intro he
        rcases List.mem_cons.mp ((h e).mpr (List.mem_cons_of_mem _ he)) with rfl | he'
        · exact absurd (hy₁ _ he) (String.lt_irrefl _)
        · exact he'

@[ext] theorem ext_get? {s t : Shelf α} (h : ∀ n, s.get? n = t.get? n) : s = t := by
  obtain ⟨es, hs⟩ := s
  obtain ⟨fs, ht⟩ := t
  have he : es = fs := by
    refine eq_of_mem_iff hs ht fun e => ?_
    obtain ⟨n, x⟩ := e
    rw [Keyed.mem_iff_lookup (distinct_of_sorted hs), Keyed.mem_iff_lookup (distinct_of_sorted ht)]
    exact iff_of_eq (congrArg (· = some x) (h n))
  subst he
  rfl

end Shelf

end MailMerge
