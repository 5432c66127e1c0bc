import MailMerge.Proofs.Store.Agreement
import MailMerge.Proofs.Store.Failure
import MailMerge.Proofs.Store.RoundTrip

/-! # Templates are kept apart

A change of some templates leaves all others as they are, their files and what is told of them.
There is one exception: where documents have the extension of the drafts, the draft of a template
has the file name of a document, and takes its place.
-/

namespace MailMerge

open Disk Utf8 StoreM

namespace DirectoryStore

variable {dir : Path} {extension name other : String} {q : Place} {s s' s₁ : DirectoryStore}
  {d d' d₁ : Disk} {t u : Template} {deed : Deed}

/-- Drafts are documents just where the extension is theirs. -/
theorem draftName_eq_fileName_iff (hdot : '.' ∉ extension.toList) :
    encode (draftName extension name) = encode (fileName extension other) ↔
      extension = "tmp" ∧ other = name ++ ".tmp" := by
  constructor
  · intro h
    rw [encode_draftName, encode_fileName extension other] at h
    obtain ⟨hstem, hending⟩ := eq_of_append_dot (by decide) (dot_not_mem_encode hdot) h
    obtain rfl := encode_injective hending
    obtain rfl := encode_injective hstem
    exact ⟨rfl, String.append_assoc⟩
  · rintro ⟨rfl, rfl⟩
    rw [draftName, fileName, fileName]
    simp only [String.append_assoc]
    rfl

/-- The deed stores templates or takes one away, none of them of this name. -/
inductive Deed.PassesBy (name : String) : Deed → Prop
  | create {t : Template} (h : t.name ≠ name) : PassesBy name (.create t)
  | update {old : String} {t : Template} (hold : old ≠ name) (h : t.name ≠ name) :
    PassesBy name (.update old t)
  | delete {old : String} (h : old ≠ name) : PassesBy name (.delete old)

/-- The deed stores a template whose draft has the file name of this document. -/
def Deed.Overwrites (extension name : String) (deed : Deed) : Prop :=
  ∃ t, deed.stored? = some t ∧ extension = "tmp" ∧ name = t.name ++ ".tmp"

/-- The document of the template is complete, and its draft is gone. -/
structure Stored (dir : Path) (extension : String) (q : Place) (t : Template) (d d' : Disk) : Prop
    extends Published dir extension q t d d' where
  draft : d'.get? (encode (draftName extension t.name) :: q) = none

/-- What a change that succeeded has done to the folder. -/
inductive Done (dir : Path) (extension : String) (q : Place) (d : Disk) : Deed → Disk → Prop
  | created {t : Template} {d' : Disk} (h : Stored dir extension q t d d') :
    Done dir extension q d (.create t) d'
  | updated {t : Template} {d' : Disk} (h : Stored dir extension q t d d') :
    Done dir extension q d (.update t.name t) d'
  | renamed {name : String} {t : Template} {d₁ d' : Disk} (hne : t.name ≠ name)
    (h : Stored dir extension q t d d₁) (h' : Removed extension q name d₁ d') :
    Done dir extension q d (.update name t) d'
  | deleted {name : String} {d' : Disk} (h : Removed extension q name d d') :
    Done dir extension q d (.delete name) d'

section Success

variable (h : WorksIn dir extension q s d)

include h

theorem stored_of_exec (hslash : '/' ∉ extension.toList)
    (hexec : (writeDocument t).exec s d = (.ok (), s', d')) :
    s' = s ∧ Stored dir extension q t d d' := by
  obtain ⟨rfl, hvalid, d₁, hwrite, hrename⟩ := exec_writeDocument_ok hexec
  rw [h.draftPathFor_eq] at hwrite hrename
  rw [h.pathFor_eq] at hrename
  have hdraft := isStep_draftName hvalid.isDocumentName hvalid.slash_not_mem hslash
  have hfile := isStep_fileName hvalid.isDocumentName hvalid.slash_not_mem hslash
  obtain ⟨-, hwritten, mode, stamp, hx⟩ := h.folder.write hdraft hwrite
  obtain ⟨-, -, hgone, -⟩ := (h.folder.of_changesOnly hwritten).rename hdraft hfile
    encode_draftName_ne_fileName hx hrename
  exact ⟨rfl, published_of_rename h.folder hslash hvalid hwrite hrename, hgone⟩

theorem reread_of_exec {α : Type} {a b : α}
    (hexec : (do reload; pure a : StoreM DirectoryStore α).exec s d = (.ok b, s', d')) :
    s' = s.reread d q ∧ d' = d := by
  rw [exec_bind, h.exec_reload, followUp_ok, exec_pure, Prod.mk.injEq, Prod.mk.injEq] at hexec
  exact ⟨hexec.2.1.symm, hexec.2.2.symm⟩

theorem found_of_exec {α : Type} {b : α} {f : Template → StoreM DirectoryStore α}
    (hexec : (do refresh; let u ← find name; f u).exec s d = (.ok b, s', d')) :
    ∃ s₁ u, WorksIn dir extension q s₁ d ∧ IsStep (encode (fileName extension name)) ∧
      (f u).exec s₁ d = (.ok b, s', d') := by
  obtain ⟨_, s₁, d₁, hrefresh, hexec⟩ := exists_of_exec_bind hexec
  rw [h.exec_refresh, Prod.mk.injEq, Prod.mk.injEq] at hrefresh
  obtain ⟨-, rfl, rfl⟩ := hrefresh
  obtain ⟨u, s₂, d₂, hfind, hexec⟩ := exists_of_exec_bind hexec
  rw [exec_find, Prod.mk.injEq, Prod.mk.injEq] at hfind
  obtain ⟨hfound, rfl, rfl⟩ := hfind
  have h₁ := worksIn_refreshed h
  exact ⟨_, u, h₁, h₁.isStep_of_find hfound, hexec⟩

theorem removed_of_exec (hstep : IsStep (encode (fileName extension name)))
    (hexec : (removeDocument name).exec s d = (.ok (), s', d')) :
    s' = s ∧ Removed extension q name d d' := by
  obtain ⟨rfl, ⟨fault, -, hr, -⟩ | ⟨-, hremove⟩⟩ := removal_of_exec hexec
  · simp at hr
  · exact ⟨rfl, removed_of_remove h hstep hremove⟩

structure Ended (dir : Path) (extension : String) (q : Place) (d : Disk) (deed : Deed)
    (s' : DirectoryStore) (d' : Disk) : Prop where
  done : Done dir extension q d deed d'
  read : ∃ s₁, WorksIn dir extension q s₁ d' ∧ s' = s₁.reread d' q

section

variable (hslash : '/' ∉ extension.toList)

include hslash

theorem ended_of_create (hexec : (TemplateStore.create t).exec s d = (.ok u, s', d')) :
    Ended dir extension q d (.create t) s' d' := by
  obtain ⟨_, s₁, d₁, hwrite, hread⟩ := exists_of_exec_bind hexec
  obtain ⟨rfl, hstored⟩ := stored_of_exec h hslash hwrite
  have h₁ := h.of_changesOnly hstored.changes
  obtain ⟨rfl, rfl⟩ := reread_of_exec h₁ hread
  exact ⟨.created hstored, _, h₁, rfl⟩

theorem ended_of_update (hexec : (TemplateStore.update name t).exec s d = (.ok u, s', d')) :
    Ended dir extension q d (.update name t) s' d' := by
  obtain ⟨s₁, -, h₁, hstep, hchange⟩ := found_of_exec h hexec
  obtain ⟨_, s₂, d₁, hwrite, hrest⟩ := exists_of_exec_bind hchange
  obtain ⟨rfl, hstored⟩ := stored_of_exec h₁ hslash hwrite
  have h₂ := h₁.of_changesOnly hstored.changes
  dsimp only at hrest
  split at hrest
  · rename_i hne
    obtain ⟨_, s₃, d₂, hremove, hread⟩ := exists_of_exec_bind hrest
    obtain ⟨rfl, hremoved⟩ := removed_of_exec h₂ hstep hremove
    have h₃ := h₂.of_changesOnly hremoved.changes
    obtain ⟨rfl, rfl⟩ := reread_of_exec h₃ hread
    exact ⟨.renamed hne hstored hremoved, _, h₃, rfl⟩
  · rename_i hname
    obtain rfl := Decidable.not_not.mp hname
    obtain ⟨rfl, rfl⟩ := reread_of_exec h₂ hrest
    exact ⟨.updated hstored, _, h₂, rfl⟩

end

theorem ended_of_delete (hexec : (TemplateStore.delete name).exec s d = (.ok u, s', d')) :
    Ended dir extension q d (.delete name) s' d' := by
  obtain ⟨s₁, v, h₁, hstep, hchange⟩ := found_of_exec h hexec
  obtain ⟨_, s₂, d₁, hremove, hread⟩ := exists_of_exec_bind hchange
  obtain ⟨rfl, hremoved⟩ := removed_of_exec h₁ hstep hremove
  have h₂ := h₁.of_changesOnly hremoved.changes
  obtain ⟨rfl, rfl⟩ := reread_of_exec h₂ hread
  exact ⟨.deleted hremoved, _, h₂, rfl⟩

theorem ended_of_exec (hslash : '/' ∉ extension.toList) (hdeed : deed.PassesBy other)
    (hexec : deed.dealing.exec s d = (.ok (), s', d')) :
    Ended dir extension q d deed s' d' := by
  cases hdeed with
  | create =>
    obtain ⟨u, hexec⟩ := exists_of_exec_map hexec
    exact ended_of_create h hslash hexec
  | update =>
    obtain ⟨u, hexec⟩ := exists_of_exec_map hexec
    exact ended_of_update h hslash hexec
  | delete =>
    obtain ⟨u, hexec⟩ := exists_of_exec_map hexec
    exact ended_of_delete h hexec

end Success

section Others

variable (hdot : '.' ∉ extension.toList)

include hdot

theorem Stored.child (hs : Stored dir extension q t d d') (hne : t.name ≠ other)
    (hdraft : ¬ (extension = "tmp" ∧ other = t.name ++ ".tmp")) :
    d'.get? (encode (fileName extension other) :: q) =
      d.get? (encode (fileName extension other) :: q) := by
  apply hs.changes.child
  rintro (heq | heq)
  · exact hdraft ((draftName_eq_fileName_iff hdot).mp heq.symm)
  · exact hne (encode_fileName_injective heq).symm

omit hdot in
theorem Removed.child (hr : Removed extension q name d d') (hne : name ≠ other) :
    d'.get? (encode (fileName extension other) :: q) =
      d.get? (encode (fileName extension other) :: q) := by
  apply hr.changes.child
  intro heq
  exact hne (encode_fileName_injective heq).symm

theorem Done.child (hdone : Done dir extension q d deed d') (hdeed : deed.PassesBy other)
    (hkept : ¬ deed.Overwrites extension other) :
    d'.get? (encode (fileName extension other) :: q) =
      d.get? (encode (fileName extension other) :: q) := by
  cases hdone with
  | @created t _ hs =>
    cases hdeed with
    | create hne => exact hs.child hdot hne fun hdraft => hkept ⟨t, rfl, hdraft⟩
  | @updated t _ hs =>
    cases hdeed with
    | update _ hne => exact hs.child hdot hne fun hdraft => hkept ⟨t, rfl, hdraft⟩
  | @renamed old t d₁ _ _ hs hr =>
    cases hdeed with
    | update hold hne =>
      exact (hr.child hold).trans (hs.child hdot hne fun hdraft => hkept ⟨t, rfl, hdraft⟩)
  | deleted hr =>
    cases hdeed with
    | delete hold => exact hr.child hold

theorem Done.gone (hdone : Done dir extension q d deed d') (hdeed : deed.PassesBy other)
    (hover : deed.Overwrites extension other) :
    d'.get? (encode (fileName extension other) :: q) = none := by
  obtain ⟨t, ht, hdraft⟩ := hover
  have hname : encode (draftName extension t.name) = encode (fileName extension other) :=
    (draftName_eq_fileName_iff hdot).mpr hdraft
  rw [← hname]
  cases hdone with
  | created hs | updated hs =>
    obtain rfl := Option.some.inj ht
    exact hs.draft
  | renamed _ hs hr =>
    obtain rfl := Option.some.inj ht
    cases hdeed with
    | update hold =>
      rw [hname, hr.child hold, ← hname]
      exact hs.draft
  | deleted => simp [Deed.stored?] at ht

end Others

/-- A change that succeeds leaves every other template as it was: its file is the same, and it is
told as before. But where the extension is the one of the drafts, the template whose file the
change has taken for a draft is not there any more. -/
theorem others_kept (hdot : '.' ∉ extension.toList) (hslash : '/' ∉ extension.toList)
    (h : Arises dir extension q s d) (hdeed : deed.PassesBy other)
    (hshown : s.shown d q other = .ok u) (hexec : deed.dealing.exec s d = (.ok (), s', d')) :
    (¬ deed.Overwrites extension other →
      d'.get? (encode (fileName extension other) :: q) =
          d.get? (encode (fileName extension other) :: q) ∧
        s'.Tells d' other (.ok u)) ∧
    (deed.Overwrites extension other →
      d'.get? (encode (fileName extension other) :: q) = none ∧
        s'.Tells d' other (.error (.notFound other))) := by
  have hworks := worksIn_of_arises hslash h
  obtain ⟨hdone, s₁, hworks₁, rfl⟩ := ended_of_exec hworks hslash hdeed hexec
  obtain rfl := hworks.extension_eq
  have hat : s₁.FolderAt d' q := ⟨hworks₁.extension_eq ▸ hdot, hworks₁.leads,
    hworks₁.folder.folder, hworks₁.folder.names⟩
  have htells : (s₁.reread d' q).Tells d' other (s.shown d' q other) := by
    have hsame : (s₁.reread d' q).shown d' q other = s.shown d' q other :=
      shown_of_same (hworks₁.dir_eq.trans hworks.dir_eq.symm) hworks₁.extension_eq _
    rw [← hsame]
    exact tells_of_folderAt hat.of_reread fun _ => shows_reread hat
  constructor
  · intro hkept
    have hchild := hdone.child hdot hdeed hkept
    rw [shown_congr (bytesAt_congr hchild), hshown] at htells
    exact ⟨hchild, htells⟩
  · intro hover
    have hgone := hdone.gone hdot hdeed hover
    have hbytes : d'.bytesAt (encode (fileName s.extension other) :: q) = none := by
      simp [bytesAt, hgone]
    rw [shown_of_bytesAt_none hbytes] at htells
    exact ⟨hgone, htells⟩

/-- A template whose name is the file name of another one. -/
theorem others_kept_sample : ∃ s' d',
    (Deed.create ⟨"a.html", "B"⟩).dealing.exec (rootStore 1) sampleDisk = (.ok (), s', d') ∧
      d'.get? [encode "a.html"] = sampleDisk.get? [encode "a.html"] ∧
      s'.Tells d' "a" (.ok ⟨"a", "A"⟩) := by
  obtain ⟨s', d', hexec⟩ : ∃ s' d', (Deed.create ⟨"a.html", "B"⟩).dealing.exec (rootStore 1)
      sampleDisk = (.ok (), s', d') := ⟨_, _, rfl⟩
  have hkept : ¬ (Deed.create ⟨"a.html", "B"⟩).Overwrites "html" "a" := by
    rintro ⟨t, -, htmp, -⟩
    exact absurd htmp (by decide)
  obtain ⟨hsame, htells⟩ := (others_kept (by decide) (by decide) arises_sample
    (.create (by decide)) rfl hexec).1 hkept
  exact ⟨s', d', hexec, hsame, htells⟩

/-- Where documents have the extension of the drafts, a template is lost when another one is
stored. -/
theorem created_over_document : ∃ s₁ d₁ s₂ d₂,
    (TemplateStore.create ⟨"a.tmp", "B"⟩).exec (⟨⟨[Path.slash]⟩, "tmp", {}⟩ : DirectoryStore)
        Disk.empty = (.ok ⟨"a.tmp", "B"⟩, s₁, d₁) ∧
      ((TemplateStore.get (σ := DirectoryStore) "a.tmp").exec s₁ d₁).1 = .ok ⟨"a.tmp", "B"⟩ ∧
      (TemplateStore.create ⟨"a", "A"⟩).exec s₁ d₁ = (.ok ⟨"a", "A"⟩, s₂, d₂) ∧
      ((TemplateStore.get (σ := DirectoryStore) "a.tmp").exec s₂ d₂).1 =
        .error (.notFound "a.tmp") ∧
      d₂.bytesAt [encode "a.tmp.tmp"] = none :=
  ⟨_, _, _, _, rfl, rfl, rfl, rfl, rfl⟩

end DirectoryStore

end MailMerge
