import MailMerge.Proofs.Session
import MailMerge.Proofs.Store.Protection
import MailMerge.Proofs.Store.Stages

/-! # Calls that break off

A call to the catalog looks at the store and is then refused, or goes on to one change of the store.
What the looks have told by then is what the rest of the call can rely on, wherever it breaks off.
-/

namespace MailMerge

open Disk StoreM

namespace TemplateStore

variable {σ α : Type} [TemplateStore σ] {I : σ → Disk → Prop} {R : Disk → Prop} {s : σ} {d : Disk}

/-- A look-up leaves the disk as it was, and `I` as well. -/
structure KeepsOnLook (σ : Type) [TemplateStore σ] (I : σ → Disk → Prop) : Prop where
  looks_list : Looks (TemplateStore.list : StoreM σ (List Template))
  looks_get : ∀ name, Looks (TemplateStore.get name : StoreM σ Template)
  list : ∀ {s d}, I s d → I ((TemplateStore.list : StoreM σ (List Template)).exec s d).2.1 d
  get : ∀ name {s d}, I s d → I ((TemplateStore.get name : StoreM σ Template).exec s d).2.1 d

/-- The answer to a look-up for a name, found on a store with `I`. -/
def Told (I : σ → Disk → Prop) (d : Disk) (name : String) (present : Bool) : Prop :=
  ∃ s s' : σ, I s d ∧ (contains name).exec s d = (.ok present, s', d)

section

variable (hI : KeepsOnLook σ I) (hd : R d) (h : I s d) {name : String}

include hI hd h

theorem upholds_contains {f : Bool → StoreM σ α}
    (hok : ∀ present s', Told I d name present → I s' d → Upholds I R (f present) s' d) :
    Upholds I R (contains name >>= f) s d := by
  have hkeep : I ((contains name : StoreM σ Bool).exec s d).2.1 d := by
    rw [exec_contains]
    exact hI.get name h
  exact upholds_look hd (looks_contains (hI.looks_get name)) hkeep fun present s' hcontains =>
    hok present s' ⟨s, s', h, hcontains⟩

theorem upholds_present {m : StoreM σ α}
    (hgo : ∀ s', Told I d name true → I s' d → Upholds I R m s' d) :
    Upholds I R (do
      if !(← contains name) then throw (.notFound name)
      m) s d := by
  refine upholds_contains hI hd h fun present s' htold h' => ?_
  refine upholds_unless hd h' fun hpresent => hgo s' ?_ h'
  rw [Bool.not_eq_true', Bool.not_eq_false] at hpresent
  exact hpresent ▸ htold

theorem upholds_free {m : StoreM σ α}
    (hgo : ∀ s', Told I d name false → I s' d → Upholds I R m s' d) :
    Upholds I R (do
      if ← contains name then throw (.duplicate name)
      m) s d := by
  refine upholds_contains hI hd h fun present s' htold h' => ?_
  refine upholds_unless hd h' fun hfree => hgo s' ?_ h'
  exact Bool.eq_false_iff.mpr hfree ▸ htold

end

end TemplateStore

namespace Catalog

open TemplateStore

variable {σ : Type} [TemplateStore σ] {I : σ → Disk → Prop} {R : Disk → Prop} {s : σ} {d : Disk}

theorem name_eq_target {lookup : UpdateLookup} {name : String} {t : Template}
    (h : ¬ (lookup = .routeName ∧ t.name ≠ target lookup name t)) :
    t.name = target lookup name t := by
  cases lookup with
  | incomingName => rfl
  | routeName => simpa using h

variable (hI : KeepsOnLook σ I) (hd : R d) (h : I s d)

include hI hd h

theorem upholds_create {t : Template}
    (hgo : ∀ s', ValidName t.name → Told I d t.name false → I s' d →
      Upholds I R (TemplateStore.create t) s' d) : Upholds I R (create t) s d :=
  upholds_check hd h fun _ hname => upholds_free hI hd h fun s' htold h' =>
    hgo s' (checkName_eq_ok_iff.mp hname) htold h'

theorem upholds_update {lookup : UpdateLookup} {name : String} {t : Template}
    (hgo : ∀ s', ValidName t.name → target lookup name t ≠ defaultName →
      Told I d (target lookup name t) true →
      (t.name ≠ target lookup name t → Told I d t.name false) → I s' d →
      Upholds I R (TemplateStore.update (target lookup name t) t) s' d) :
    Upholds I R (update lookup name t) s d := by
  refine upholds_check hd h fun _ _ => upholds_check hd h fun _ hname => ?_
  refine upholds_check hd h fun _ hold => ?_
  have hvalid := checkName_eq_ok_iff.mp hname
  have hold := DirectoryStore.ne_of_protect hold
  refine upholds_present hI hd h fun s' hpresent h' => ?_
  show Upholds I R (if lookup = .routeName ∧ t.name ≠ target lookup name t then _ else _) s' d
  split
  · refine upholds_free hI hd h' fun s'' hfree h'' => ?_
    exact hgo s'' hvalid hold hpresent (fun _ => hfree) h''
  · rename_i hkeep
    exact hgo s' hvalid hold hpresent (absurd (name_eq_target hkeep)) h'

theorem upholds_delete {name : String}
    (hgo : ∀ s', name ≠ defaultName → Told I d name true → I s' d →
      Upholds I R (TemplateStore.delete name) s' d) : Upholds I R (delete name) s d :=
  upholds_check hd h fun _ hname => upholds_present hI hd h fun s' htold h' =>
    hgo s' (DirectoryStore.ne_of_protect hname) htold h'

theorem upholds_list : Upholds I R (list : StoreM σ (List Template)) s d :=
  upholds_of_looks hd hI.looks_list (hI.list h)

theorem upholds_get (name : String) : Upholds I R (get name : StoreM σ Template) s d :=
  upholds_of_looks hd (hI.looks_get name) (hI.get name h)

end Catalog

namespace DirectoryStore

variable {dir : Path} {extension : String} {q : Place} {I : DirectoryStore → Disk → Prop}

theorem Invariant.keepsOnLook (hI : Invariant dir extension q I) :
    TemplateStore.KeepsOnLook DirectoryStore I where
  looks_list := looks_list
  looks_get := looks_getTemplate
  list h := by
    rw [exec_list_of_leads (hI.works h).leads (hI.works h).folder.folder]
    exact hI.refreshed h
  get name _ _ h := by
    rw [exec_get_of_leads (hI.works h).leads (hI.works h).folder.folder]
    exact hI.refreshed h

/-- How far a call to the catalog may have come on a disk `d`, and what its look-ups have told by
then. -/
inductive Stage (dir : Path) (extension : String) (q : Place) (I : DirectoryStore → Disk → Prop)
    (lookup : UpdateLookup) (d : Disk) : Call → Disk → Prop
  | untouched (c : Call) : Stage dir extension q I lookup d c d
  | drafted {t : Template} {d' : Disk} (hfree : TemplateStore.Told I d t.name false)
    (h : Drafted extension q t d d') : Stage dir extension q I lookup d (.create t) d'
  | created {t : Template} {d' : Disk} (hfree : TemplateStore.Told I d t.name false)
    (h : Published dir extension q t d d') : Stage dir extension q I lookup d (.create t) d'
  | redrafted {name : String} {t : Template} {d' : Disk}
    (hthere : TemplateStore.Told I d (Catalog.target lookup name t) true)
    (hfree : t.name ≠ Catalog.target lookup name t → TemplateStore.Told I d t.name false)
    (h : Drafted extension q t d d') : Stage dir extension q I lookup d (.update name t) d'
  | updated {name : String} {t : Template} {d' : Disk}
    (hthere : TemplateStore.Told I d (Catalog.target lookup name t) true)
    (hfree : t.name ≠ Catalog.target lookup name t → TemplateStore.Told I d t.name false)
    (h : Published dir extension q t d d') : Stage dir extension q I lookup d (.update name t) d'
  /-- The new document is complete before the old one is taken away. -/
  | renamed {name : String} {t : Template} {d₁ d' : Disk}
    (hthere : TemplateStore.Told I d (Catalog.target lookup name t) true)
    (hne : t.name ≠ Catalog.target lookup name t) (hfree : TemplateStore.Told I d t.name false)
    (h : Published dir extension q t d d₁)
    (h' : Removed extension q (Catalog.target lookup name t) d₁ d') :
    Stage dir extension q I lookup d (.update name t) d'
  | deleted {name : String} {d' : Disk} (hthere : TemplateStore.Told I d name true)
    (h : Removed extension q name d d') : Stage dir extension q I lookup d (.delete name) d'

/-- Wherever a call breaks off, it has come to one of the stages. -/
theorem stage_of_call (hI : Invariant dir extension q I) (hslash : '/' ∉ extension.toList)
    {s : DirectoryStore} {d : Disk} (h : I s d) (lookup : UpdateLookup) (c : Call) :
    Upholds I (Stage dir extension q I lookup d c) (c.answer lookup) s d := by
  have hlook := hI.keepsOnLook
  have hd : Stage dir extension q I lookup d c d := .untouched c
  cases c with
  | list => exact (Catalog.upholds_list hlook hd h).map _
  | names => exact ((Catalog.upholds_list hlook hd h).map _).map _
  | get name => exact (Catalog.upholds_get hlook hd h name).map _
  | create t =>
    refine (Catalog.upholds_create hlook hd h fun s' _ hfree h' => ?_).map _
    exact upholds_create hI h' hslash (fun _ => .drafted hfree) fun _ => .created hfree
  | update name t =>
    refine (Catalog.upholds_update hlook hd h fun s' _ _ hthere hfree h' => ?_).map _
    apply upholds_update hI h' hslash
    · exact fun _ => .redrafted hthere hfree
    · exact fun _ => .updated hthere hfree
    · exact fun hne _ _ hp => .renamed hthere hne (hfree hne) hp
  | delete name =>
    refine (Catalog.upholds_delete hlook hd h fun s' _ hthere h' => ?_).map _
    exact upholds_delete hI h' hd fun _ => .deleted hthere

end DirectoryStore

end MailMerge
