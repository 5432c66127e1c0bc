import MailMerge.Proofs.Store.Reading

/-! # Errors of a store in a folder

Looking a template up fails because it is missing or because of the disk. Whether there is one,
and storing a document under a valid name, fails because of the disk alone.
-/

namespace MailMerge

open Disk

namespace TemplateError

theorem isStorage_iff {e : TemplateError} :
    e.isStorage = true ↔ ∃ path fault, e = storage path fault := by
  cases e <;> simp [isStorage]

/-- Nothing is wrong but that a template is missing or that the disk has failed. -/
def IsLookUp (e : TemplateError) : Prop := e.isStorage = true ∨ ∃ name, e = notFound name

end TemplateError

namespace StoreM

variable {σ α β : Type} {P : TemplateError → Prop} {m : StoreM σ α}

/-- Every error that the dealing may end with is one of these. -/
def FailsOnly (P : TemplateError → Prop) (m : StoreM σ α) : Prop :=
  ∀ ⦃s d e s' d'⦄, m.exec s d = (.error e, s', d') → P e

theorem failsOnly_of_ok (h : ∀ s d, ∃ a, (m.exec s d).1 = .ok a) : FailsOnly P m := by
  intro s d e s' d' hfail
  obtain ⟨a, ha⟩ := h s d
  rw [hfail] at ha
  exact absurd ha nofun

theorem failsOnly_pure (a : α) : FailsOnly P (pure a : StoreM σ α) :=
  failsOnly_of_ok fun _ _ => ⟨a, rfl⟩

theorem failsOnly_get : FailsOnly P (get : StoreM σ σ) := failsOnly_of_ok fun s _ => ⟨s, rfl⟩

theorem failsOnly_bind {f : α → StoreM σ β} (hm : FailsOnly P m) (hf : ∀ a, FailsOnly P (f a)) :
    FailsOnly P (m >>= f) := by
  intro s d e s' d' h
  rcases cases_of_exec_bind h with ⟨e', hfail, he⟩ | ⟨a, s₁, d₁, -, hrest⟩
  · rw [Except.error.inj he]
    exact hm hfail
  · exact hf a hrest

theorem failsOnly_request {path : Path} (p : Program (Except Fault α))
    (h : ∀ fault, P (.storage path fault)) : FailsOnly P (request path p : StoreM σ α) := by
  intro s d e s' d' hfail
  have hr := congrArg Prod.fst ((exec_request path p s d).symm.trans hfail)
  rcases hrun : (p.run d).1 with fault | a
  · rw [hrun] at hr
    exact Except.error.inj hr ▸ h fault
  · rw [hrun] at hr
    exact absurd hr nofun

theorem FailsOnly.mono {Q : TemplateError → Prop} (hm : FailsOnly P m) (hPQ : ∀ e, P e → Q e) :
    FailsOnly Q m :=
  fun _ _ _ _ _ hfail => hPQ _ (hm hfail)

abbrev FailsOnDisk (m : StoreM σ α) : Prop := FailsOnly (fun e => e.isStorage = true) m

end StoreM

namespace TemplateStore

open StoreM

theorem failsOnDisk_contains {σ : Type} [TemplateStore σ] {name : String}
    (hget : FailsOnly TemplateError.IsLookUp (get name : StoreM σ Template)) :
    FailsOnDisk (contains name : StoreM σ Bool) := by
  intro s d e s' d' hfail
  rw [exec_contains, Prod.mk.injEq] at hfail
  obtain ⟨hpresence, -⟩ := hfail
  rcases hexec : (get name).exec s d with ⟨e₁ | t, s₁, d₁⟩
  · rw [hexec] at hpresence
    rcases hget hexec with hstorage | ⟨n, rfl⟩
    · obtain ⟨path, fault, rfl⟩ := TemplateError.isStorage_iff.mp hstorage
      exact Except.error.inj hpresence ▸ hstorage
    · exact absurd hpresence nofun
  · rw [hexec] at hpresence
    exact absurd hpresence nofun

end TemplateStore

namespace DirectoryStore

open StoreM TemplateStore

theorem failsOnDisk_scan : FailsOnDisk scan :=
  failsOnly_bind failsOnly_get fun _ =>
    failsOnly_bind (failsOnly_request _ fun _ => rfl) fun _ =>
      failsOnly_bind (failsOnly_request _ fun _ => rfl) fun _ => failsOnly_pure _

theorem failsOnDisk_load (docs : List (String × Path × Info)) (signal : Signal) :
    FailsOnDisk (load docs signal) := by
  refine failsOnly_bind (failsOnly_of_ok fun s d => ⟨((readAll docs).run d).1, ?_⟩) fun ix => ?_
  · exact congrArg Prod.fst (exec_liftM (readAll docs) s d)
  · exact failsOnly_of_ok fun _ _ => ⟨(), rfl⟩

theorem failsOnDisk_refresh : FailsOnDisk refresh := by
  refine failsOnly_bind failsOnDisk_scan fun found => failsOnly_bind failsOnly_get fun s => ?_
  split
  · exact failsOnly_pure ()
  · exact failsOnDisk_load found.1 found.2

theorem failsOnDisk_reload : FailsOnDisk reload :=
  failsOnly_bind failsOnDisk_scan fun found => failsOnDisk_load found.1 found.2

theorem isLookUp_of_find {ix : Index} {name : String} {e : TemplateError}
    (h : ix.find name = .error e) : e.IsLookUp := by
  unfold Index.find at h
  cases ht : ix.templates.get? name with
  | some t => simp [ht] at h
  | none =>
    cases hu : ix.unreadable.get? name with
    | some u =>
      simp only [ht, hu, Except.error.injEq] at h
      exact h ▸ .inl rfl
    | none =>
      simp only [ht, hu, Except.error.injEq] at h
      exact h ▸ .inr ⟨name, rfl⟩

theorem failsOnly_find (name : String) : FailsOnly TemplateError.IsLookUp (find name) := by
  refine failsOnly_bind failsOnly_get fun s => ?_
  intro s₁ d e s' d' hfail
  exact isLookUp_of_find (congrArg Prod.fst hfail)

theorem failsOnly_get_template (name : String) :
    FailsOnly TemplateError.IsLookUp (TemplateStore.get name : StoreM DirectoryStore Template) :=
  failsOnly_bind (failsOnDisk_refresh.mono fun _ => .inl) fun _ => failsOnly_find name

theorem failsOnDisk_create {t : Template} (hname : ValidName t.name) :
    FailsOnDisk (TemplateStore.create t : StoreM DirectoryStore Template) := by
  refine failsOnly_bind ?_ fun _ => failsOnly_bind failsOnDisk_reload fun _ => failsOnly_pure t
  refine failsOnly_bind (failsOnly_of_ok fun s d => ⟨(), ?_⟩) fun _ => ?_
  · exact checkName_eq_ok_iff.mpr hname
  · exact failsOnly_bind failsOnly_get fun s =>
      failsOnly_bind (failsOnly_request _ fun _ => rfl) fun _ =>
        failsOnly_request _ fun _ => rfl

theorem failsOnDisk_seedDefault :
    FailsOnDisk (seedDefault : StoreM DirectoryStore (Option Template)) := by
  have hcontains := failsOnDisk_contains (failsOnly_get_template defaultName)
  refine failsOnly_bind hcontains fun present => ?_
  cases present with
  | true => exact failsOnly_pure none
  | false =>
    have hname : ValidName Template.seed.name := by decide
    exact failsOnly_bind (failsOnDisk_create hname) fun t => failsOnly_pure (some t)

end DirectoryStore

end MailMerge
