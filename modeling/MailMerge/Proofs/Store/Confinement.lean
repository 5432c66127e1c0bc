import MailMerge.Proofs.Disk.Untouched
import MailMerge.Proofs.Store.Upkeep

/-! # Which files a store touches

Of the files in its folder a store touches the one of the document that it stores, the draft of that
document, and the one of the document that it takes away. It looks at the others and leaves them as
they are.
-/

namespace MailMerge

open Disk Utf8

namespace DirectoryStore

variable {α β : Type} {s s' : DirectoryStore} {d d' : Disk} {q : Place} {P P' : Bytes → Prop}
  {name : String}

/-- A dealing keeps the store and the disk in order, and of the files in the folder it touches only
such as have a name with `P`. -/
structure ConfinedBy (q : Place) (P : Bytes → Prop) (m : StoreM DirectoryStore α)
    (s : DirectoryStore) (d : Disk) : Prop where
  kept : KeptBy q m s d
  untouched : ∀ n, ¬ P n → Untouched (n :: q) d (m.exec s d).2.2

namespace ConfinedBy

variable {m : StoreM DirectoryStore α} {f : α → StoreM DirectoryStore β}

theorem mono (h : ConfinedBy q P m s d) (hP : ∀ n, P n → P' n) : ConfinedBy q P' m s d :=
  ⟨h.kept, fun n hn => h.untouched n fun hp => hn (hP n hp)⟩

theorem bind (h : ConfinedBy q P m s d)
    (hf : ∀ a s' d', m.exec s d = (.ok a, s', d') → Kept q s d s' d' →
      (∀ n, ¬ P n → Untouched (n :: q) d d') → ConfinedBy q P (f a) s' d') :
    ConfinedBy q P (m >>= f) s d := by
  obtain ⟨hkept, huntouched⟩ := h
  have hnext : ∀ a s' d', m.exec s d = (.ok a, s', d') → Kept q s d s' d' →
      ConfinedBy q P (f a) s' d' := by
    intro a s' d' hm hk
    refine hf a s' d' hm hk fun n hn => ?_
    have hu := huntouched n hn
    rw [hm] at hu
    exact hu
  refine ⟨hkept.bind fun a s' d' hm hk => (hnext a s' d' hm hk).kept, fun n hn => ?_⟩
  have hu := huntouched n hn
  rw [StoreM.exec_bind]
  rcases hm : m.exec s d with ⟨_ | a, s', d'⟩
  · rw [hm] at hu
    exact hu
  · rw [hm] at hu
    rw [KeptBy, hm] at hkept
    exact hu.trans ((hnext a s' d' hm hkept).untouched n hn)

theorem of_disk (hk : KeptBy q m s d) (hd : (m.exec s d).2.2 = d) : ConfinedBy q P m s d := by
  refine ⟨hk, fun n _ => ?_⟩
  rw [hd]
  exact .refl _ d

end ConfinedBy

theorem confined_pure (h : s.Tends d q) (a : α) : ConfinedBy q P (pure a) s d :=
  .of_disk (keptBy_pure h a) rfl

theorem confined_throw (h : s.Tends d q) (e : TemplateError) :
    ConfinedBy q P (throw e : StoreM DirectoryStore α) s d :=
  .of_disk (keptBy_ofExcept h (.error e)) rfl

theorem confined_check (h : s.Tends d q) {r : Except TemplateError α}
    {f : α → StoreM DirectoryStore β} (hf : ∀ a, r = .ok a → ConfinedBy q P (f a) s d) :
    ConfinedBy q P (StoreM.ofExcept r >>= f) s d := by
  refine ConfinedBy.bind (.of_disk (keptBy_ofExcept h r) rfl) fun a s' d' hr _ _ => ?_
  simp only [StoreM.exec_ofExcept, Prod.mk.injEq] at hr
  obtain ⟨hr, rfl, rfl⟩ := hr
  exact hf a hr

theorem confined_unless (h : s.Tends d q) {c : Prop} [Decidable c] {e : TemplateError}
    {next : Unit → StoreM DirectoryStore α} (hnext : ¬ c → ConfinedBy q P (next ()) s d) :
    ConfinedBy q P (if c then throw e >>= next else next ()) s d := by
  split
  · refine (confined_throw h e).bind fun _ _ _ hthrow _ _ => ?_
    have herror : (throw e : StoreM DirectoryStore Unit).exec s d = (.error e, s, d) := rfl
    rw [herror] at hthrow
    simp at hthrow
  · exact hnext ‹_›

theorem ConfinedBy.map {m : StoreM DirectoryStore α} (h : ConfinedBy q P m s d) (f : α → β) :
    ConfinedBy q P (m >>= fun a => pure (f a)) s d :=
  h.bind fun _ _ _ _ hk _ => confined_pure hk.tends _

section Reading

theorem confined_state (h : s.Tends d q) {f : DirectoryStore → StoreM DirectoryStore β}
    (hf : ConfinedBy q P (f s) s d) : ConfinedBy q P (get >>= f) s d := by
  refine ConfinedBy.bind (.of_disk (keptBy_get h) rfl) fun a s' d' hget _ _ => ?_
  simp only [StoreM.exec_get, Prod.mk.injEq, Except.ok.injEq] at hget
  obtain ⟨rfl, rfl, rfl⟩ := hget
  exact hf

theorem confined_refresh (h : s.Tends d q) : ConfinedBy q P refresh s d := by
  refine .of_disk (keptBy_refresh h) ?_
  cases hlist : d.list s.dir with
  | error fault => rw [exec_refresh_error hlist]
  | ok files => rw [exec_refresh (h.folderAt hlist)]

theorem confined_reload (h : s.Tends d q) : ConfinedBy q P reload s d := by
  refine .of_disk (keptBy_reload h) ?_
  cases hlist : d.list s.dir with
  | error fault => rw [exec_reload_error hlist]
  | ok files => rw [exec_reload (h.folderAt hlist)]

theorem confined_find (h : s.Tends d q) (name : String) : ConfinedBy q P (find name) s d :=
  .of_disk (keptBy_find h name) rfl

theorem confined_list (h : s.Tends d q) : ConfinedBy q P TemplateStore.list s d :=
  (confined_refresh h).bind fun _ _ _ _ hk _ =>
    confined_state hk.tends (confined_pure hk.tends _)

theorem confined_getTemplate (h : s.Tends d q) (name : String) :
    ConfinedBy q P (TemplateStore.get name) s d :=
  (confined_refresh h).bind fun _ _ _ _ hk _ => confined_find hk.tends name

theorem confined_contains (h : s.Tends d q) (name : String) :
    ConfinedBy q P (TemplateStore.contains name) s d := by
  refine ⟨keptBy_contains h name, fun n hn => ?_⟩
  rw [TemplateStore.exec_contains]
  exact (confined_getTemplate h name).untouched n hn

end Reading

section Writing

theorem confined_request (h : s.Tends d q) {path : Path} {e : Except Fault Disk}
    {m : StoreM DirectoryStore Unit}
    (hm : m.exec s d = ((d.settle e).1.mapError (TemplateError.storage path), s, (d.settle e).2))
    (he : ∀ d', e = .ok d' → Evolves q d d')
    (hu : ∀ d', e = .ok d' → ∀ n, ¬ P n → Untouched (n :: q) d d') : ConfinedBy q P m s d := by
  refine ⟨.of_exec hm (.of_evolves h (evolves_settle he)), fun n hn => ?_⟩
  rw [hm]
  exact untouched_settle fun d' hd' => hu d' hd' n hn

def storing (extension : String) (t : Template) (n : Bytes) : Prop :=
  n = encode (draftName extension t.name) ∨ n = encode (fileName extension t.name)

theorem confined_writeDocument (h : s.Tends d q) (t : Template) :
    ConfinedBy q (storing s.extension t) (writeDocument t) s d := by
  refine confined_check h fun _ hname => confined_state h ?_
  have hvalid := checkName_eq_ok_iff.mp hname
  have hdraft := isStep_draftName hvalid.isDocumentName hvalid.slash_not_mem h.no_slash
  have hfile := isStep_fileName hvalid.isDocumentName hvalid.slash_not_mem h.no_slash
  have hne : ∀ {n m : Bytes} {r : Place}, n ≠ m → r = m :: q → n :: q ≠ r := by
    rintro n m r hnm rfl heq
    exact hnm (List.cons.inj heq).1
  refine (confined_request h (StoreM.exec_write _ _ _ _ _) (fun d' hd' => evolves_write q hd')
    fun d' hd' n hn => untouched_write hd' fun r hr => ?_).bind fun _ s₁ d₁ hwrite hk _ => ?_
  · exact hne (not_or.mp hn).1 (leads_trimmed h hdraft hr)
  obtain ⟨rfl, hd⟩ :=
    StoreM.of_settle_eq_ok ((StoreM.exec_write _ _ _ _ _).symm.trans hwrite)
  obtain ⟨mode, stamp, hx⟩ := file_of_write h hdraft hd
  refine confined_request hk.tends (StoreM.exec_rename _ _ _ _ _)
    (fun d'' hd'' => evolves_publish hk.tends hdraft hfile hx hd'')
    fun d'' hd'' n hn => untouched_rename hd'' (fun r hr => ?_) fun r hr => ?_
  · obtain rfl := leads_trimmed hk.tends hdraft hr
    exact ⟨hne (not_or.mp hn).1 rfl, not_hasFolder_of_get?_eq_some hx rfl⟩
  · exact hne (not_or.mp hn).2 (leads_trimmed hk.tends hfile hr)

theorem confined_removeDocument (h : s.Tends d q)
    (hname : IsStep (encode (fileName s.extension name))) :
    ConfinedBy q (· = encode (fileName s.extension name)) (removeDocument name) s d := by
  refine confined_state h (confined_request h (StoreM.exec_remove _ _ _ _)
    (fun d' hd' => evolves_discard h hname hd')
    fun d' hd' n hn => untouched_remove hd' fun r hr heq => ?_)
  obtain rfl := leads_trimmed h hname hr
  exact hn (List.cons.inj heq).1

theorem confined_create (h : s.Tends d q) (t : Template) :
    ConfinedBy q (storing s.extension t) (TemplateStore.create t) s d :=
  (confined_writeDocument h t).bind fun _ _ _ _ hk _ => (confined_reload hk.tends).map _

theorem confined_update (h : s.Tends d q) (name : String) (t : Template) :
    ConfinedBy q (fun n => storing s.extension t n ∨ n = encode (fileName s.extension name))
      (TemplateStore.update name t) s d := by
  refine (confined_refresh h).bind fun _ s₁ d₁ hrefresh hk₁ _ => ?_
  refine (confined_find hk₁.tends name).bind fun _ s₂ d₂ hfind hk₂ _ => ?_
  rw [exec_find, Prod.mk.injEq, Prod.mk.injEq] at hfind
  obtain ⟨hfound, rfl, rfl⟩ := hfind
  have hstep := isStep_of_found h hrefresh hfound
  rw [← hk₁.extension]
  refine ((confined_writeDocument hk₂.tends t).mono fun _ => .inl).bind
    fun _ s₃ d₃ _ hk₃ _ => ?_
  split
  · rw [← hk₃.extension] at hstep ⊢
    exact ((confined_removeDocument hk₃.tends hstep).mono fun _ => .inr).bind
      fun _ _ _ _ hk _ => (confined_reload hk.tends).map _
  · exact (confined_reload hk₃.tends).map _

theorem confined_delete (h : s.Tends d q) (name : String) :
    ConfinedBy q (· = encode (fileName s.extension name)) (TemplateStore.delete name) s d := by
  refine (confined_refresh h).bind fun _ s₁ d₁ hrefresh hk₁ _ => ?_
  refine (confined_find hk₁.tends name).bind fun t s₂ d₂ hfind hk₂ _ => ?_
  rw [exec_find, Prod.mk.injEq, Prod.mk.injEq] at hfind
  obtain ⟨hfound, rfl, rfl⟩ := hfind
  rw [← hk₁.extension]
  exact (confined_removeDocument hk₂.tends (isStep_of_found h hrefresh hfound)).bind
    fun _ _ _ _ hk _ => (confined_reload hk.tends).map _

theorem confined_seedDefault (h : s.Tends d q) :
    ConfinedBy q (storing s.extension Template.seed) TemplateStore.seedDefault s d := by
  refine (confined_contains h _).bind fun seeded _ _ _ hk _ => ?_
  split
  · exact confined_pure hk.tends _
  · rw [← hk.extension]
    exact (confined_create hk.tends _).map _

end Writing

end DirectoryStore

end MailMerge
