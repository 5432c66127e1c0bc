import MailMerge.Catalog
import MailMerge.Proofs.Store.Confinement

/-! # The protected document

The catalog refuses to change or delete the protected template and to create one that is there. What
is there is asked of a store, which may have read the folder long ago; that is enough to keep the
catalog from ever touching the file of the protected document, under every name and in every way.
-/

namespace MailMerge

open Disk Utf8

namespace DirectoryStore

variable {s s' : DirectoryStore} {d d' : Disk} {q : Place} {name extension : String} {b : Bytes}

def protectedFile (extension : String) : Bytes := encode (fileName extension defaultName)

theorem eq_of_encode_fileName {extension' other : String} (hext : '.' ∉ extension.toList)
    (hext' : '.' ∉ extension'.toList)
    (h : encode (fileName extension name) = encode (fileName extension' other)) :
    name = other ∧ extension = extension' := by
  rw [encode_fileName, encode_fileName] at h
  obtain ⟨hstem, hending⟩ :=
    eq_of_append_dot (dot_not_mem_encode hext) (dot_not_mem_encode hext') h
  exact ⟨encode_injective hstem, encode_injective hending⟩

/-- No document is written by way of the protected file, whatever the extensions are: the name of a
draft holds two dots. -/
theorem encode_draftName_ne_protectedFile {extension' : String} (hext : '.' ∉ extension.toList) :
    encode (draftName extension' name) ≠ protectedFile extension := by
  rw [encode_draftName, protectedFile, encode_fileName extension]
  intro h
  have hstem := (eq_of_append_dot (by decide) (dot_not_mem_encode hext) h).1
  have hdot : dot ∈ encode (fileName extension' name) := by simp [encode_fileName]
  rw [hstem] at hdot
  exact absurd hdot (by decide)

theorem fileName_ne_protectedFile {extension' : String} (hext : '.' ∉ extension.toList)
    (hext' : '.' ∉ extension'.toList) (hname : name ≠ defaultName) :
    encode (fileName extension' name) ≠ protectedFile extension :=
  fun h => hname (eq_of_encode_fileName hext' hext h).1

theorem bytesAt_eq_none_of_contains (h : s.Tends d q) (hname : IsDocumentName name)
    (hcontains : (TemplateStore.contains name).exec s d = (.ok false, s', d')) :
    d.bytesAt (encode (fileName s.extension name) :: q) = none := by
  rw [TemplateStore.exec_contains] at hcontains
  have hpresence := congrArg Prod.fst hcontains
  cases hlist : d.list s.dir with
  | error fault =>
    rw [exec_get_error hlist] at hpresence
    simp [TemplateStore.presence] at hpresence
  | ok files =>
    have hat := h.folderAt hlist
    rw [exec_get hat (h.current hat)] at hpresence
    cases hbytes : d.bytesAt (encode (fileName s.extension name) :: q) with
    | none => rfl
    | some b =>
      obtain ⟨m, t, hget⟩ := bytesAt_eq_some_iff.mp hbytes
      have hdoc := document?_eq_some hat hname hget
      cases hread : d.readText (s.pathFor name) with
      | error fault =>
        simp [shown, hdoc, hread, TemplateStore.presence] at hpresence
      | ok html =>
        simp [shown, hdoc, hread, TemplateStore.presence] at hpresence

theorem ne_of_protect {action : Action} {u : Unit}
    (h : Catalog.protect name action = .ok u) : name ≠ defaultName := by
  intro heq
  simp [Catalog.protect, heq] at h

section

variable (h : s.Tends d q) (hext : '.' ∉ extension.toList)

include h hext

theorem confined_create_of_ne {t : Template}
    (hne : encode (fileName s.extension t.name) ≠ protectedFile extension) :
    ConfinedBy q (· ≠ protectedFile extension) (TemplateStore.create t) s d := by
  refine (confined_create h t).mono ?_
  rintro n (rfl | rfl)
  · exact encode_draftName_ne_protectedFile hext
  · exact hne

theorem confined_update_of_ne {old : String} {t : Template} (hold : old ≠ defaultName)
    (hne : encode (fileName s.extension t.name) ≠ protectedFile extension) :
    ConfinedBy q (· ≠ protectedFile extension) (TemplateStore.update old t) s d := by
  refine (confined_update h old t).mono ?_
  rintro n ((rfl | rfl) | rfl)
  · exact encode_draftName_ne_protectedFile hext
  · exact hne
  · exact fileName_ne_protectedFile hext h.plain hold

theorem confined_catalogDelete (name : String) :
    ConfinedBy q (· ≠ protectedFile extension) (Catalog.delete name) s d := by
  refine confined_check h fun _ hname => ?_
  refine (confined_contains h _).bind fun present s₁ d₁ _ hk _ => ?_
  refine confined_unless hk.tends fun _ => ?_
  refine (confined_delete hk.tends name).mono ?_
  rintro n rfl
  exact fileName_ne_protectedFile hext hk.tends.plain (ne_of_protect hname)

end

section Catalog

variable (h : s.Tends d q) (hb : d.bytesAt (protectedFile extension :: q) = some b)

include h hb

theorem fileName_ne_of_contains {present : Bool} (hname : IsDocumentName name)
    (hcontains : (TemplateStore.contains name).exec s d = (.ok present, s', d'))
    (hfree : ¬ present = true) : encode (fileName s.extension name) ≠ protectedFile extension := by
  intro heq
  have hnone := bytesAt_eq_none_of_contains h hname (Bool.eq_false_iff.mpr hfree ▸ hcontains)
  rw [heq, hb] at hnone
  simp at hnone

variable (hext : '.' ∉ extension.toList)

include hext

theorem confined_catalogCreate (t : Template) :
    ConfinedBy q (· ≠ protectedFile extension) (Catalog.create t) s d := by
  refine confined_check h fun _ hname => ?_
  have hvalid := checkName_eq_ok_iff.mp hname
  refine (confined_contains h t.name).bind fun present s₁ d₁ hpresent hk _ => ?_
  refine confined_unless hk.tends fun hfree => ?_
  have hne := fileName_ne_of_contains h hb hvalid.isDocumentName hpresent hfree
  exact confined_create_of_ne hk.tends hext (hk.extension ▸ hne)

theorem confined_catalogUpdate (lookup : UpdateLookup) (name : String) (t : Template) :
    ConfinedBy q (· ≠ protectedFile extension) (Catalog.update lookup name t) s d := by
  refine confined_check h fun _ _ => confined_check h fun _ hname => confined_check h
    fun _ hold => ?_
  have hvalid := checkName_eq_ok_iff.mp hname
  have hold := ne_of_protect hold
  refine (confined_contains h _).bind fun present s₁ d₁ _ hk hu => ?_
  refine confined_unless hk.tends fun _ => ?_
  have hb₁ : d₁.bytesAt (protectedFile extension :: q) = some b :=
    (hu _ fun hne => hne rfl).bytes.trans hb
  show ConfinedBy q _ (if lookup = .routeName ∧ t.name ≠ Catalog.target lookup name t then _ else _)
    s₁ d₁
  split
  · refine (confined_contains hk.tends t.name).bind fun present s₂ d₂ hpresent hk₂ _ => ?_
    refine confined_unless hk₂.tends fun hfree => ?_
    have hne := fileName_ne_of_contains hk.tends hb₁ hvalid.isDocumentName hpresent hfree
    exact confined_update_of_ne hk₂.tends hext hold (hk₂.extension ▸ hne)
  · rename_i hkeep
    have hname : t.name ≠ defaultName := by
      cases lookup with
      | incomingName => exact hold
      | routeName =>
        simp only [true_and, ne_eq, Decidable.not_not] at hkeep
        rwa [hkeep]
    refine confined_update_of_ne hk.tends hext hold ?_
    exact fileName_ne_protectedFile hext hk.tends.plain hname

theorem confined_seed_of_present :
    ConfinedBy q (· ≠ protectedFile extension) TemplateStore.seedDefault s d := by
  refine (confined_contains h _).bind fun present s₁ d₁ hpresent hk _ => ?_
  split
  · exact confined_pure hk.tends _
  · rename_i hfree
    have hseed : IsDocumentName defaultName := ⟨by decide, by decide⟩
    have hne := fileName_ne_of_contains h hb hseed hpresent hfree
    exact (confined_create_of_ne hk.tends hext (t := Template.seed) (hk.extension ▸ hne)).map _

end Catalog

end DirectoryStore

end MailMerge
