import MailMerge.Proofs.Store.Dealing
import MailMerge.Store.Memory

/-! # What stores hold

The content of a store, apart from the way in which the store keeps it, and what the dealings with
a store have to do to its content. A store in memory keeps these laws, and so does a content that is
taken as a store itself.
-/

namespace MailMerge

open Disk

/-- Templates under their own names, and other names under which something lies that cannot be
read, each with the failure to read it. -/
structure Content where
  templates : Shelf Template
  unreadable : Shelf (Path × Fault)
  own : ∀ {n t}, templates.get? n = some t → t.name = n
  apart : ∀ {n t}, templates.get? n = some t → unreadable.get? n = none

namespace Content

variable {c : Content} {n : String} {t : Template}

def find (c : Content) (n : String) : Except TemplateError Template :=
  match c.templates.get? n with
  | some t => .ok t
  | none =>
    match c.unreadable.get? n with
    | some (path, fault) => .error (.storage path fault)
    | none => .error (.notFound n)

def empty : Content where
  templates := .empty
  unreadable := .empty
  own h := by simp at h
  apart h := by simp at h

/-- The content with `t` under its own name and nothing else there. -/
def put (c : Content) (t : Template) : Content where
  templates := c.templates.insert t.name t
  unreadable := c.unreadable.erase t.name
  own {n u} h := by
    rw [Shelf.get?_insert] at h
    split at h
    · exact Option.some.inj h ▸ ‹n = t.name›.symm
    · exact c.own h
  apart {n u} h := by
    rw [Shelf.get?_insert] at h
    rw [Shelf.get?_erase]
    split at h
    · exact if_pos ‹_›
    · rw [if_neg ‹_›, c.apart h]

def erase (c : Content) (n : String) : Content where
  templates := c.templates.erase n
  unreadable := c.unreadable.erase n
  own {m u} h := by
    rw [Shelf.get?_erase] at h
    split at h
    · simp at h
    · exact c.own h
  apart {m u} h := by
    rw [Shelf.get?_erase] at h ⊢
    split at h
    · simp at h
    · rw [if_neg ‹_›, c.apart h]

theorem find_eq_ok_iff : c.find n = .ok t ↔ c.templates.get? n = some t := by
  unfold find
  cases c.templates.get? n with
  | some u => simp
  | none =>
    cases c.unreadable.get? n <;> simp

theorem find_put (c : Content) (t : Template) (n : String) :
    (c.put t).find n = if n = t.name then .ok t else c.find n := by
  unfold find
  by_cases h : n = t.name
  · simp [put, h]
  · simp [put, h]

theorem find_erase (c : Content) (m n : String) :
    (c.erase m).find n = if n = m then .error (.notFound n) else c.find n := by
  unfold find
  by_cases h : n = m
  · simp [erase, h]
  · simp [erase, h]

/-- The content itself as a store. -/
instance : TemplateStore Content where
  list := do return (← get).templates.values
  get name := do StoreM.ofExcept ((← get).find name)
  create t := do
    modify fun c => c.put t
    return t
  update name t := do
    let _ ← StoreM.ofExcept ((← get).find name)
    modify fun c => (c.erase name).put t
    return t
  delete name := do
    let t ← StoreM.ofExcept ((← get).find name)
    modify fun c => c.erase name
    return t

end Content

section Represents

variable {σ α : Type}

/-- A dealing has answered, and the store now holds this content. -/
def Leaves (R : Content → σ → Disk → Prop) (out : Except TemplateError α × σ × Disk)
    (r : Except TemplateError α) (c : Content) : Prop :=
  out.1 = r ∧ R c out.2.1 out.2.2

/-- The laws of a store whose content `R` tells. `fits` tells the names that the store has room
for. -/
structure Represents [TemplateStore σ] (fits : String → Prop) (R : Content → σ → Disk → Prop) :
    Prop where
  list {c s d} (h : R c s d) :
    Leaves R ((TemplateStore.list (σ := σ)).exec s d) (.ok c.templates.values) c
  get {c s d} (h : R c s d) (n : String) :
    Leaves R ((TemplateStore.get (σ := σ) n).exec s d) (c.find n) c
  create {c s d t} (h : R c s d) (hvalid : ValidName t.name) (hfits : fits t.name)
    (hfree : c.find t.name = .error (.notFound t.name)) :
    Leaves R ((TemplateStore.create (σ := σ) t).exec s d) (.ok t) (c.put t)
  update {c s d n t u} (h : R c s d) (hvalid : ValidName t.name) (hfits : fits t.name)
    (hold : c.find n = .ok u) (hfree : t.name = n ∨ c.find t.name = .error (.notFound t.name)) :
    Leaves R ((TemplateStore.update (σ := σ) n t).exec s d) (.ok t) ((c.erase n).put t)
  delete {c s d n u} (h : R c s d) (hold : c.find n = .ok u) :
    Leaves R ((TemplateStore.delete (σ := σ) n).exec s d) (.ok u) (c.erase n)

theorem Content.represents : Represents (fun _ => True) fun c s (_ : Disk) => c = s where
  list h := ⟨h ▸ rfl, h⟩
  get h n := ⟨h ▸ rfl, h⟩
  create h _ _ _ := ⟨rfl, h ▸ rfl⟩
  update h _ _ hold _ := by
    subst h
    simp only [TemplateStore.update, StoreM.exec_bind, StoreM.exec_get, StoreM.followUp_ok,
      StoreM.exec_ofExcept, hold, StoreM.exec_modify, StoreM.exec_pure]
    exact ⟨rfl, rfl⟩
  delete h hold := by
    subst h
    simp only [TemplateStore.delete, StoreM.exec_bind, StoreM.exec_get, StoreM.followUp_ok,
      StoreM.exec_ofExcept, hold, StoreM.exec_modify, StoreM.exec_pure]
    exact ⟨rfl, rfl⟩

def MemoryStore.Holds (c : Content) (s : MemoryStore) (_ : Disk) : Prop :=
  s.templates = c.templates ∧ c.unreadable = .empty

theorem MemoryStore.exec_find_eq (n : String) (s : MemoryStore) (d : Disk) :
    (find n).exec s d =
      (match s.templates.get? n with
        | some t => .ok t
        | none => .error (.notFound n), s, d) := by
  rw [find, StoreM.exec_bind, StoreM.exec_get, StoreM.followUp_ok]
  cases s.templates.get? n <;> rfl

theorem MemoryStore.exec_find {c : Content} {s : MemoryStore} {d : Disk} (h : Holds c s d)
    (n : String) : (find n).exec s d = (c.find n, s, d) := by
  rw [exec_find_eq, Content.find, h.2, ← h.1]
  cases s.templates.get? n <;> rfl

theorem MemoryStore.holds_put {c : Content} {s : MemoryStore} {d : Disk} (h : Holds c s d)
    (t : Template) : Holds (c.put t) ⟨s.templates.insert t.name t⟩ d := by
  refine ⟨congrArg (fun ts => ts.insert t.name t) h.1, ?_⟩
  ext n : 1
  simp [Content.put, h.2]

theorem MemoryStore.holds_erase {c : Content} {s : MemoryStore} {d : Disk} (h : Holds c s d)
    (n : String) : Holds (c.erase n) ⟨s.templates.erase n⟩ d := by
  refine ⟨congrArg (fun ts => ts.erase n) h.1, ?_⟩
  ext m : 1
  simp [Content.erase, h.2]

theorem MemoryStore.represents : Represents (fun _ => True) MemoryStore.Holds where
  list h := ⟨congrArg (fun ts => Except.ok (Shelf.values ts)) h.1, h⟩
  get h n := by
    simp only [TemplateStore.get, MemoryStore.exec_find h]
    exact ⟨rfl, h⟩
  create h _ _ _ := ⟨rfl, holds_put h _⟩
  update h _ _ hold _ := by
    simp only [TemplateStore.update, StoreM.exec_bind, MemoryStore.exec_find h, hold,
      StoreM.followUp_ok]
    exact ⟨rfl, holds_put (holds_erase h _) _⟩
  delete h hold := by
    simp only [TemplateStore.delete, StoreM.exec_bind, MemoryStore.exec_find h, hold,
      StoreM.followUp_ok]
    exact ⟨rfl, holds_erase h _⟩

end Represents

end MailMerge
