import MailMerge.Catalog
import MailMerge.Proofs.Store.Content

/-! # What the catalog does to the content

Creation, change and deletion as functions of the content alone: the checks in their order, and what
the content is afterwards. The catalog computes these functions on every store that keeps the laws
of a content, and a refusal leaves the content as it was.
-/

namespace MailMerge

open Disk TemplateStore

namespace Content

/-- The first of the rules for names that `n` breaks. -/
def objection (n : String) : Option String :=
  if n.toList.all isSpace then some "name must not be blank"
  else if ['/', '\\', '\x00'].any n.toList.contains then
    some "name must not contain path separators"
  else if n.toList.head? = some '.' then some "name must not start with '.'"
  else none

def wellNamed (n : String) : Except TemplateError Unit :=
  match objection n with
  | some reason => .error (.invalidName n reason)
  | none => .ok ()

def unprotected (n : String) (action : Action) : Except TemplateError Unit :=
  if n = "Default" then .error (.unauthorized n action) else .ok ()

/-- Refuses a name under which something lies that cannot be read. -/
def readable (c : Content) (n : String) : Except TemplateError Unit :=
  match c.unreadable.get? n with
  | some (path, fault) => .error (.storage path fault)
  | none => .ok ()

def present (c : Content) (n : String) : Except TemplateError Template :=
  match c.templates.get? n with
  | some t => .ok t
  | none => .error (.notFound n)

def absent (c : Content) (n : String) : Except TemplateError Unit :=
  match c.templates.get? n with
  | some _ => .error (.duplicate n)
  | none => .ok ()

/-- A new template under a name that is not in use. -/
def created (c : Content) (t : Template) : Except TemplateError (Template × Content) := do
  wellNamed t.name
  c.readable t.name
  c.absent t.name
  return (t, c.put t)

def replaced (n : String) (t : Template) : UpdateLookup → String
  | .incomingName => t.name
  | .routeName => n

/-- `t` in place of another template; under `routeName` it may take a name that is not in use. -/
def updated (c : Content) (lookup : UpdateLookup) (n : String) (t : Template) :
    Except TemplateError (Template × Content) := do
  let old := replaced n t lookup
  unprotected n .updated
  wellNamed t.name
  unprotected old .updated
  c.readable old
  let _ ← c.present old
  if lookup = .routeName ∧ t.name ≠ n then
    c.readable t.name
    c.absent t.name
  return (t, (c.erase old).put t)

/-- The template that is taken away, and the content without it. -/
def deleted (c : Content) (n : String) : Except TemplateError (Template × Content) := do
  unprotected n .deleted
  c.readable n
  let t ← c.present n
  return (t, c.erase n)

theorem objection_eq (n : String) : objection n = (NameFault.of? n).map NameFault.reason := by
  have hseparator : ['/', '\\', '\x00'].any n.toList.contains = n.toList.any isSeparator := by
    rw [Bool.eq_iff_iff]
    simp only [List.any_eq_true, List.contains_iff_mem, isSeparator, Bool.or_eq_true, beq_iff_eq]
    refine exists_congr fun c => ?_
    simp [or_assoc, and_comm]
  unfold objection NameFault.of? isBlank
  simp only [hseparator, beq_iff_eq]
  split
  · rfl
  · split
    · rfl
    · split <;> rfl

theorem wellNamed_eq_checkName (n : String) : wellNamed n = checkName n := by
  rw [wellNamed, checkName, objection_eq]
  cases NameFault.of? n <;> rfl

theorem unprotected_eq_protect (n : String) (action : Action) :
    unprotected n action = Catalog.protect n action := rfl

theorem replaced_eq_target (lookup : UpdateLookup) (n : String) (t : Template) :
    replaced n t lookup = Catalog.target lookup n t := by
  cases lookup <;> rfl

end Content

section Follows

variable {σ α β : Type} {fits : String → Prop} {R : Content → σ → Disk → Prop} {c : Content}
  {s : σ} {d : Disk} {n : String} {t : Template}

/-- A dealing has done to a store what a change does to the content of the store. -/
def Follows (R : Content → σ → Disk → Prop) (c : Content)
    (out : Except TemplateError α × σ × Disk) : Except TemplateError (α × Content) → Prop
  | .ok (a, c') => Leaves R out (.ok a) c'
  | .error e => Leaves R out (.error e) c

theorem follows_ofExcept (h : R c s d) (r : Except TemplateError β) {f : β → StoreM σ α}
    {g : β → Except TemplateError (α × Content)}
    (hnext : ∀ b, r = .ok b → Follows R c ((f b).exec s d) (g b)) :
    Follows R c ((StoreM.ofExcept r >>= f).exec s d) (r >>= g) := by
  rw [StoreM.exec_bind, StoreM.exec_ofExcept]
  cases r with
  | error e => exact ⟨rfl, h⟩
  | ok b => exact hnext b rfl

variable [TemplateStore σ]

theorem follows_contains (hR : Represents fits R) (h : R c s d) (n : String) {f : Bool → StoreM σ α}
    {g : Except TemplateError (α × Content)}
    (hin : ∀ {s d u}, R c s d → c.find n = .ok u → Follows R c ((f true).exec s d) g)
    (hout : ∀ {s d}, R c s d → c.find n = .error (.notFound n) →
      Follows R c ((f false).exec s d) g) :
    Follows R c ((contains n >>= f).exec s d) (c.readable n >>= fun _ => g) := by
  obtain ⟨hanswer, hkept⟩ := hR.get h n
  rw [StoreM.exec_bind, exec_contains, hanswer]
  cases ht : c.templates.get? n with
  | some u =>
    have hfind : c.find n = .ok u := Content.find_eq_ok_iff.mpr ht
    simp only [hfind, presence, Content.readable, c.apart ht]
    exact hin hkept hfind
  | none =>
    cases hu : c.unreadable.get? n with
    | some r =>
      have hfind : c.find n = .error (.storage r.1 r.2) := by simp only [Content.find, ht, hu]
      simp only [hfind, presence, Content.readable, hu]
      exact ⟨rfl, hkept⟩
    | none =>
      have hfind : c.find n = .error (.notFound n) := by simp only [Content.find, ht, hu]
      simp only [hfind, presence, Content.readable, hu]
      exact hout hkept hfind

theorem present_of_find {u : Template} (h : c.find n = .ok u) : c.present n = .ok u := by
  rw [Content.present, Content.find_eq_ok_iff.mp h]

theorem absent_of_find {u : Template} (h : c.find n = .ok u) :
    c.absent n = .error (.duplicate n) := by
  rw [Content.absent, Content.find_eq_ok_iff.mp h]

theorem get?_of_find_eq_notFound (h : c.find n = .error (.notFound n)) :
    c.templates.get? n = none := by
  cases ht : c.templates.get? n with
  | none => rfl
  | some u => rw [Content.find_eq_ok_iff.mpr ht] at h; simp at h

theorem present_of_find_eq_notFound (h : c.find n = .error (.notFound n)) :
    c.present n = .error (.notFound n) := by
  rw [Content.present, get?_of_find_eq_notFound h]

theorem absent_of_find_eq_notFound (h : c.find n = .error (.notFound n)) : c.absent n = .ok () := by
  rw [Content.absent, get?_of_find_eq_notFound h]

theorem follows_create (hR : Represents fits R) (h : R c s d) (hfits : fits t.name) :
    Follows R c ((Catalog.create (σ := σ) t).exec s d) (c.created t) := by
  unfold Catalog.create Content.created
  rw [Content.wellNamed_eq_checkName]
  refine follows_ofExcept h _ fun _ hname => ?_
  refine follows_contains hR h _ ?_ ?_
  · intro s d u h hfind
    simp only [absent_of_find hfind]
    exact ⟨rfl, h⟩
  · intro s d h hfind
    simp only [absent_of_find_eq_notFound hfind]
    exact hR.create h (checkName_eq_ok_iff.mp hname) hfits hfind

theorem follows_delete (hR : Represents fits R) (h : R c s d) (n : String) :
    Follows R c ((Catalog.delete (σ := σ) n).exec s d) (c.deleted n) := by
  unfold Catalog.delete Content.deleted
  rw [Content.unprotected_eq_protect]
  refine follows_ofExcept h _ fun _ _ => ?_
  refine follows_contains hR h _ ?_ ?_
  · intro s d u h hfind
    simp only [present_of_find hfind]
    exact hR.delete h hfind
  · intro s d h hfind
    simp only [present_of_find_eq_notFound hfind]
    exact ⟨rfl, h⟩

theorem follows_update (hR : Represents fits R) (h : R c s d) (lookup : UpdateLookup) (n : String)
    (hfits : fits t.name) :
    Follows R c ((Catalog.update (σ := σ) lookup n t).exec s d) (c.updated lookup n t) := by
  unfold Catalog.update Content.updated
  simp only [Content.unprotected_eq_protect, Content.wellNamed_eq_checkName,
    Content.replaced_eq_target]
  refine follows_ofExcept h _ fun _ _ => ?_
  refine follows_ofExcept h _ fun _ hname => ?_
  have hvalid := checkName_eq_ok_iff.mp hname
  refine follows_ofExcept h _ fun _ _ => ?_
  refine follows_contains hR h _ ?_ ?_
  · intro s d u h hfind
    simp only [present_of_find hfind, Bool.not_true, Bool.false_eq_true, if_false]
    by_cases hmove : lookup = .routeName ∧ t.name ≠ n
    · obtain ⟨rfl, hne⟩ := hmove
      have hold : t.name ≠ Catalog.target .routeName n t := hne
      simp only [hne, hold, ne_eq, not_false_eq_true, and_self, if_true]
      refine follows_contains hR h t.name ?_ ?_
      · intro s d u' h hused
        simp only [absent_of_find hused]
        exact ⟨rfl, h⟩
      · intro s d h hfree
        simp only [absent_of_find_eq_notFound hfree]
        exact hR.update h hvalid hfits hfind (.inr hfree)
    · have hold : ¬ (lookup = .routeName ∧ t.name ≠ Catalog.target lookup n t) := by
        rintro ⟨rfl, hne⟩
        exact hmove ⟨rfl, hne⟩
      simp only [hmove, hold, if_false]
      refine hR.update h hvalid hfits hfind (.inl ?_)
      cases lookup with
      | incomingName => rfl
      | routeName => exact Decidable.byContradiction fun hne => hmove ⟨rfl, hne⟩
  · intro s d h hfind
    simp only [present_of_find_eq_notFound hfind]
    exact ⟨rfl, h⟩

/-- The catalog does to every store what its rules do to the content of the store: each answer is
the one for the content, a change leaves exactly the changed content, and a refusal leaves the
content as it was. -/
theorem catalog_follows_content (hR : Represents (fun _ => True) R) (h : R c s d)
    (lookup : UpdateLookup) (n : String) (t : Template) :
    Follows R c ((Catalog.create (σ := σ) t).exec s d) (c.created t) ∧
      Follows R c ((Catalog.update (σ := σ) lookup n t).exec s d) (c.updated lookup n t) ∧
      Follows R c ((Catalog.delete (σ := σ) n).exec s d) (c.deleted n) :=
  ⟨follows_create hR h trivial, follows_update hR h lookup n trivial, follows_delete hR h n⟩

end Follows

def Content.sample : Content where
  templates := ⟨[("Default", ⟨"Default", "D"⟩), ("a", ⟨"a", "A"⟩)],
    List.pairwise_pair.mpr (by decide)⟩
  unreadable := ⟨[("b", (⟨[]⟩, .notText))], List.pairwise_singleton _ _⟩
  own {n t} h := by
    obtain ⟨rfl, rfl⟩ | ⟨rfl, rfl⟩ : (n = "Default" ∧ t = ⟨"Default", "D"⟩) ∨
      n = "a" ∧ t = ⟨"a", "A"⟩ := by simpa using Shelf.mem_entries_iff.mpr h
    · rfl
    · rfl
  apart {n t} h := by
    obtain ⟨rfl, -⟩ | ⟨rfl, -⟩ : (n = "Default" ∧ t = ⟨"Default", "D"⟩) ∨
      n = "a" ∧ t = ⟨"a", "A"⟩ := by simpa using Shelf.mem_entries_iff.mpr h
    · rfl
    · rfl

/-- Taken as a store, the sample answers `r` to the dealing and is `c` afterwards. -/
def Content.SampleYields (m : StoreM Content Template) (r : Except TemplateError Template)
    (c : Content) : Prop :=
  Leaves (fun c s (_ : Disk) => c = s) (m.exec Content.sample Disk.empty) r c

/-- Neither the protected template nor one that cannot be read is changed, and a bad name is not
taken. Another template is renamed, by a store in memory as well. -/
theorem catalog_sample :
    Content.SampleYields (Catalog.create ⟨".x", "X"⟩)
        (.error (.invalidName ".x" "name must not start with '.'")) .sample ∧
      Content.SampleYields (Catalog.update .routeName "Default" ⟨"x", "X"⟩)
        (.error (.unauthorized "Default" .updated)) .sample ∧
      Content.SampleYields (Catalog.update .routeName "a" ⟨"", "X"⟩)
        (.error (.invalidName "" "name must not be blank")) .sample ∧
      Content.SampleYields (Catalog.update .incomingName "a" ⟨"Default", "X"⟩)
        (.error (.unauthorized "Default" .updated)) .sample ∧
      Content.SampleYields (Catalog.update .routeName "a" ⟨"b", "X"⟩)
        (.error (.storage ⟨[]⟩ .notText)) .sample ∧
      Content.SampleYields (Catalog.update .routeName "a" ⟨"x", "X"⟩)
        (.ok ⟨"x", "X"⟩) ((Content.sample.erase "a").put ⟨"x", "X"⟩) ∧
      Content.SampleYields (Catalog.delete "Default")
        (.error (.unauthorized "Default" .deleted)) .sample ∧
      Leaves MemoryStore.Holds
        ((Catalog.update .routeName "a" ⟨"x", "X"⟩).exec ⟨Content.sample.templates⟩ Disk.empty)
        (.ok ⟨"x", "X"⟩) (((Content.sample.erase "b").erase "a").put ⟨"x", "X"⟩) := by
  have hfollows := catalog_follows_content Content.represents (c := Content.sample)
    (d := Disk.empty) rfl
  have hmemory := catalog_follows_content MemoryStore.represents (c := Content.sample.erase "b")
    (s := ⟨Content.sample.templates⟩) (d := Disk.empty) ⟨rfl, rfl⟩
  exact ⟨(hfollows .routeName "" ⟨".x", "X"⟩).1, (hfollows .routeName "Default" ⟨"x", "X"⟩).2.1,
    (hfollows .routeName "a" ⟨"", "X"⟩).2.1, (hfollows .incomingName "a" ⟨"Default", "X"⟩).2.1,
    (hfollows .routeName "a" ⟨"b", "X"⟩).2.1, (hfollows .routeName "a" ⟨"x", "X"⟩).2.1,
    (hfollows .routeName "Default" ⟨"x", "X"⟩).2.2, (hmemory .routeName "a" ⟨"x", "X"⟩).2.1⟩

end MailMerge
