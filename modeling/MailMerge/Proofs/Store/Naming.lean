import MailMerge.Proofs.Store.Content
import MailMerge.Proofs.Store.Reading
import MailMerge.Store.Either

/-! # Templates are kept under their names

A store files every template under the name that the template has. So it does when it is opened,
and no dealing with it changes that, whatever the disk holds and whatever becomes of the dealing.
-/

namespace MailMerge

def Shelf.Named (s : Shelf Template) : Prop := ∀ n t, s.get? n = some t → t.name = n

namespace Shelf.Named

variable {s : Shelf Template} {n : String} {t : Template}

theorem empty : (Shelf.empty : Shelf Template).Named := nofun

theorem insert (h : s.Named) (t : Template) : (s.insert t.name t).Named := by
  intro m u hu
  rw [get?_insert] at hu
  split at hu
  · rename_i hm
    rw [hm, Option.some.inj hu]
  · exact h m u hu

theorem erase (h : s.Named) (n : String) : (s.erase n).Named := by
  intro m u hu
  rw [get?_erase] at hu
  split at hu
  · simp at hu
  · exact h m u hu

theorem ofList (ts : List Template) : (Shelf.ofList (ts.map fun t => (t.name, t))).Named := by
  have hfold : ∀ {s : Shelf Template}, s.Named →
      ((ts.map fun t => (t.name, t)).foldl (fun s e => s.insert e.1 e.2) s).Named := by
    induction ts with
    | nil => exact fun h => h
    | cons t ts ih => exact fun h => ih (h.insert t)
  exact hfold .empty

end Shelf.Named

namespace StoreM

variable {σ α β : Type} {I : σ → Prop}

/-- Whatever a dealing answers, the store that it leaves satisfies `I` if the one before did. -/
def Preserves (I : σ → Prop) (m : StoreM σ α) : Prop := ∀ s d, I s → I (m.exec s d).2.1

theorem Preserves.bind {m : StoreM σ α} {f : α → StoreM σ β} (hm : Preserves I m)
    (hf : ∀ a, Preserves I (f a)) : Preserves I (m >>= f) := by
  intro s d hs
  rw [exec_bind]
  have h := hm s d hs
  rcases hout : m.exec s d with ⟨_ | a, s', d'⟩
  · rw [hout] at h
    exact h
  · rw [hout] at h
    exact hf a s' d' h

theorem preserves_pure (a : α) : Preserves I (pure a : StoreM σ α) := fun _ _ h => h

theorem preserves_get : Preserves I (get : StoreM σ σ) := fun _ _ h => h

theorem preserves_ofExcept (r : Except TemplateError α) : Preserves I (ofExcept r) :=
  fun _ _ h => h

theorem preserves_request (path : Path) (p : Program (Except Disk.Fault α)) :
    Preserves I (request path p) := by
  intro s d hs
  rw [exec_request]
  exact hs

theorem Preserves.map {m : StoreM σ α} (hm : Preserves I m) (f : α → β) :
    Preserves I (m >>= fun a => pure (f a)) :=
  hm.bind fun _ => preserves_pure _

theorem preserves_modify {f : σ → σ} (hf : ∀ s, I s → I (f s)) :
    Preserves I (modify f : StoreM σ Unit) := fun s _ h => hf s h

end StoreM

open StoreM

namespace TemplateStore

/-- Where `I` holds, a template that is looked up has the name that it is looked up by; and `I` goes on
to hold, whatever is done with the store. -/
structure KeepsNames (σ : Type) [TemplateStore σ] (I : σ → Prop) : Prop where
  name_of_get : ∀ {name s d t}, I s →
    ((TemplateStore.get name : StoreM σ Template).exec s d).1 = .ok t → t.name = name
  list : Preserves I (TemplateStore.list : StoreM σ (List Template))
  get : ∀ name, Preserves I (TemplateStore.get name : StoreM σ Template)
  create : ∀ t, Preserves I (TemplateStore.create t : StoreM σ Template)
  update : ∀ name t, Preserves I (TemplateStore.update name t : StoreM σ Template)
  delete : ∀ name, Preserves I (TemplateStore.delete name : StoreM σ Template)

end TemplateStore

open TemplateStore

namespace MemoryStore

def Named (s : MemoryStore) : Prop := s.templates.Named

theorem preserves_find (name : String) : Preserves Named (find name) := by
  intro s d hs
  rw [exec_find_eq]
  exact hs

theorem preserves_put (t : Template) : Preserves Named (put t) :=
  (preserves_modify fun _ h => h.insert t).map fun _ => t

theorem preserves_drop (name : String) : Preserves Named (drop name) :=
  preserves_modify fun _ h => h.erase name

theorem keepsNames : KeepsNames MemoryStore Named where
  name_of_get {name s d t} hs h := by
    have hfind : ((find name).exec s d).1 = .ok t := h
    rw [exec_find_eq] at hfind
    cases hget : s.templates.get? name with
    | none => simp [hget] at hfind
    | some u =>
      simp only [hget, Except.ok.injEq] at hfind
      exact hs name t (hfind ▸ hget)
  list := preserves_get.map _
  get := preserves_find
  create := preserves_put
  update name t :=
    (preserves_find name).bind fun _ => (preserves_drop name).bind fun _ => preserves_put t
  delete name := (preserves_find name).bind fun t => (preserves_drop name).map fun _ => t

end MemoryStore

namespace DirectoryStore

def Named (s : DirectoryStore) : Prop := s.index.templates.Named

theorem named_readAll (docs : List (String × Path × Disk.Info)) (d : Disk) :
    ((readAll docs).run d).1.templates.Named := by
  induction docs generalizing d with
  | nil => exact .empty
  | cons doc docs ih =>
    rw [readAll, Program.run_bind, Program.run_readText, Program.run_bind]
    have hrest := ih d
    cases d.readText doc.2.1 with
    | ok html => exact hrest.insert ⟨doc.1, html⟩
    | error fault => exact hrest

theorem preserves_load (docs : List (String × Path × Disk.Info)) (signal : Signal) :
    Preserves Named (load docs signal) := by
  intro s d _
  rw [load]
  simp only [exec_bind, exec_liftM, followUp_ok, exec_modify]
  exact named_readAll docs d

theorem preserves_scan : Preserves Named scan :=
  preserves_get.bind fun s => (preserves_request s.dir _).bind fun _ =>
    (preserves_request s.dir _).bind fun _ => preserves_pure _

theorem preserves_reload : Preserves Named reload :=
  preserves_scan.bind fun found => preserves_load found.1 found.2

theorem preserves_refresh : Preserves Named refresh := by
  refine preserves_scan.bind fun found => preserves_get.bind fun s => ?_
  split
  · exact preserves_pure _
  · exact preserves_load found.1 found.2

theorem preserves_find (name : String) : Preserves Named (find name) :=
  preserves_get.bind fun _ => preserves_ofExcept _

theorem preserves_writeDocument (t : Template) : Preserves Named (writeDocument t) :=
  (preserves_ofExcept _).bind fun _ => preserves_get.bind fun _ =>
    (preserves_request _ _).bind fun _ => preserves_request _ _

theorem preserves_removeDocument (name : String) : Preserves Named (removeDocument name) :=
  preserves_get.bind fun _ => preserves_request _ _

theorem name_of_find {ix : Index} {name : String} {t : Template} (hix : ix.templates.Named)
    (h : ix.find name = .ok t) : t.name = name := by
  unfold Index.find at h
  split at h
  · rename_i u hu
    exact hix name t (Except.ok.inj h ▸ hu)
  · split at h <;> simp at h

theorem keepsNames : KeepsNames DirectoryStore Named where
  name_of_get {name s d t} hs h := by
    have hget : (StoreM.exec (do refresh; find name) s d).1 = .ok t := h
    have hnamed := preserves_refresh s d hs
    rw [exec_bind] at hget
    rcases hrefresh : refresh.exec s d with ⟨_ | _, s', d'⟩
    · simp [hrefresh] at hget
    · rw [hrefresh] at hget hnamed
      rw [followUp_ok, exec_find] at hget
      exact name_of_find hnamed hget
  list := preserves_refresh.bind fun _ => preserves_get.map _
  get name := preserves_refresh.bind fun _ => preserves_find name
  create t := (preserves_writeDocument t).bind fun _ => preserves_reload.map fun _ => t
  update name t := by
    refine preserves_refresh.bind fun _ => (preserves_find name).bind fun _ =>
      (preserves_writeDocument t).bind fun _ => ?_
    split
    · exact (preserves_removeDocument name).bind fun _ => preserves_reload.map fun _ => t
    · exact preserves_reload.map fun _ => t
  delete name := preserves_refresh.bind fun _ => (preserves_find name).bind fun t =>
    (preserves_removeDocument name).bind fun _ => preserves_reload.map fun _ => t

theorem named_of_openAt {dir : Path} {extension : String} {d : Disk} {s : DirectoryStore}
    (h : ((openAt dir extension).run d).1 = .ok s) : s.Named := by
  have hs : s.index = {} := by
    rcases run_openAt dir extension d with hrun | hrun | ⟨fault, hrun⟩
    · rw [hrun] at h
      exact Except.ok.inj h ▸ rfl
    · rw [hrun] at h
      exact Except.ok.inj h ▸ rfl
    · rw [hrun] at h
      simp at h
  rw [Named, hs]
  exact .empty

end DirectoryStore

namespace Store

def Named : Store → Prop
  | memory s => s.Named
  | directory s => s.Named

section

variable {α : Type} (m : {σ : Type} → [TemplateStore σ] → StoreM σ α)

theorem exec_deal_memory (s : MemoryStore) (d : Disk) :
    (deal m).exec (memory s) d =
      (((m (σ := MemoryStore)).exec s d).1, memory ((m (σ := MemoryStore)).exec s d).2.1,
        ((m (σ := MemoryStore)).exec s d).2.2) := by
  rw [deal, exec_ofFn]
  simp only [Program.run_bind, Program.run_pure]
  rfl

theorem exec_deal_directory (s : DirectoryStore) (d : Disk) :
    (deal m).exec (directory s) d =
      (((m (σ := DirectoryStore)).exec s d).1,
        directory ((m (σ := DirectoryStore)).exec s d).2.1,
        ((m (σ := DirectoryStore)).exec s d).2.2) := by
  rw [deal, exec_ofFn]
  simp only [Program.run_bind, Program.run_pure]
  rfl

theorem preserves_deal (hm : Preserves MemoryStore.Named (m (σ := MemoryStore)))
    (hd : Preserves DirectoryStore.Named (m (σ := DirectoryStore))) :
    Preserves Named (deal m) := by
  intro s d hs
  cases s with
  | memory s =>
    rw [exec_deal_memory]
    exact hm s d hs
  | directory s =>
    rw [exec_deal_directory]
    exact hd s d hs

end

theorem keepsNames : KeepsNames Store Named where
  name_of_get {name s d t} hs h := by
    have hget : ((deal (TemplateStore.get name)).exec s d).1 = .ok t := h
    cases s with
    | memory s =>
      rw [exec_deal_memory] at hget
      exact MemoryStore.keepsNames.name_of_get hs hget
    | directory s =>
      rw [exec_deal_directory] at hget
      exact DirectoryStore.keepsNames.name_of_get hs hget
  list := preserves_deal _ MemoryStore.keepsNames.list DirectoryStore.keepsNames.list
  get name :=
    preserves_deal _ (MemoryStore.keepsNames.get name) (DirectoryStore.keepsNames.get name)
  create t :=
    preserves_deal _ (MemoryStore.keepsNames.create t) (DirectoryStore.keepsNames.create t)
  update name t :=
    preserves_deal _ (MemoryStore.keepsNames.update name t)
      (DirectoryStore.keepsNames.update name t)
  delete name :=
    preserves_deal _ (MemoryStore.keepsNames.delete name) (DirectoryStore.keepsNames.delete name)

/-- A store that can come about: it was filled or opened, and then dealt with in any way, on a disk
that may each time be another one. -/
inductive Arises : Store → Prop
  | memory (ts : List Template) : Arises (.memory (.ofList ts))
  | directory {dir : Path} {extension : String} {d : Disk} {s : DirectoryStore}
    (h : ((DirectoryStore.openAt dir extension).run d).1 = .ok s) : Arises (.directory s)
  | list {s : Store} (h : Arises s) (d : Disk) :
    Arises ((TemplateStore.list (σ := Store)).exec s d).2.1
  | get {s : Store} (h : Arises s) (name : String) (d : Disk) :
    Arises ((TemplateStore.get (σ := Store) name).exec s d).2.1
  | create {s : Store} (h : Arises s) (t : Template) (d : Disk) :
    Arises ((TemplateStore.create (σ := Store) t).exec s d).2.1
  | update {s : Store} (h : Arises s) (name : String) (t : Template) (d : Disk) :
    Arises ((TemplateStore.update (σ := Store) name t).exec s d).2.1
  | delete {s : Store} (h : Arises s) (name : String) (d : Disk) :
    Arises ((TemplateStore.delete (σ := Store) name).exec s d).2.1

theorem named_of_arises {s : Store} (h : s.Arises) : s.Named := by
  induction h with
  | memory ts => exact .ofList ts
  | directory h => exact DirectoryStore.named_of_openAt h
  | list _ d ih => exact keepsNames.list _ d ih
  | get _ name d ih => exact keepsNames.get name _ d ih
  | create _ t d ih => exact keepsNames.create t _ d ih
  | update _ name t d ih => exact keepsNames.update name t _ d ih
  | delete _ name d ih => exact keepsNames.delete name _ d ih

end Store

end MailMerge
