import MailMerge.Proofs.Enclosure
import MailMerge.Proofs.Store.Refinement

/-! # Calls that break off lose nothing

A call to the catalog may break off at any moment, even within a write. A store that is opened anew
on the folder then serves every other template as before, and the templates of the call as they were
or as they should become: no half document is ever served, and no renamed template is lost.
-/

namespace MailMerge

open Disk DirectoryStore Utf8 StoreM

/-- What a store answers that is opened anew on the folder. -/
def DirectoryStore.afresh {α : Type} (dir : Path) (extension : String) (m : StoreM DirectoryStore α)
    (d : Disk) : Except TemplateError α :=
  match (openAt dir extension).run d with
  | (.ok s, d') => (m.exec s d').1
  | (.error e, _) => .error e

/-- The template that a store serves under a name once it is opened anew on the folder. -/
def DirectoryStore.served (dir : Path) (extension : String) (d : Disk) (name : String) :
    Except TemplateError Template :=
  afresh dir extension (Catalog.get name) d

/-- How what is served under each name after a call has broken off relates to what was served
before. A template that is given a new name is there under the old name or, complete, under the new
one. -/
def Call.Survives (lookup : UpdateLookup) (before after : String → Except TemplateError Template) :
    Call → Prop
  | list => ∀ n, after n = before n
  | names => ∀ n, after n = before n
  | get _ => ∀ n, after n = before n
  | create t => (∀ n, n ≠ t.name → after n = before n) ∧
    (after t.name = before t.name ∨ after t.name = .ok t)
  | update name t =>
    let old := Catalog.target lookup name t
    (∀ n, n ≠ old → n ≠ t.name → after n = before n) ∧
      (after t.name = before t.name ∨ after t.name = .ok t) ∧
      (old ≠ t.name → after old = before old ∨
        after old = .error (.notFound old) ∧ after t.name = .ok t)
  | delete name => (∀ n, n ≠ name → after n = before n) ∧
    (after name = before name ∨ after name = .error (.notFound name))

theorem Call.survives_of_same {lookup : UpdateLookup} {c : Call}
    {before after : String → Except TemplateError Template} (h : ∀ n, after n = before n) :
    c.Survives lookup before after := by
  cases c with
  | list | names | get => exact h
  | create t => exact ⟨fun n _ => h n, .inl (h t.name)⟩
  | update name t => exact ⟨fun n _ _ => h n, .inl (h t.name), fun _ => .inl (h _)⟩
  | delete name => exact ⟨fun n _ => h n, .inl (h name)⟩

namespace DirectoryStore

variable {dir : Path} {extension name : String} {q : Place} {s : DirectoryStore} {d d' : Disk}
  {t : Template}

section Served

variable (hdot : '.' ∉ extension.toList)

theorem folderAt_of_plainFolder (hs : '.' ∉ s.extension.toList) (h : PlainFolder s.dir d q) :
    s.FolderAt d q := ⟨hs, h.leads, h.folder, h.names⟩

include hdot

section

variable (h : PlainFolder dir d q)

include h

theorem served_eq (name : String) :
    served dir extension d name = shown ⟨dir, extension, {}⟩ d q name := by
  have hat : FolderAt ⟨dir, extension, {}⟩ d q := folderAt_of_plainFolder hdot h
  rw [served, afresh, run_openAt_of_folder extension h.leads h.folder]
  show ((TemplateStore.get (σ := DirectoryStore) name).exec _ d).1 = _
  rw [exec_get hat nofun]

/-- A store that is opened anew lists what it serves. -/
theorem listed_eq : ∃ ts, afresh dir extension Catalog.list d = .ok ts ∧
    (ts.Pairwise fun t u => t.name < u.name) ∧
    ∀ t, t ∈ ts ↔ served dir extension d t.name = .ok t := by
  have hat : FolderAt ⟨dir, extension, {}⟩ d q := folderAt_of_plainFolder hdot h
  obtain ⟨hsorted, hmem⟩ := values_of_shows (shows_refreshed hat nofun)
  refine ⟨_, ?_, hsorted, fun t => ?_⟩
  · rw [afresh, run_openAt_of_folder extension h.leads h.folder]
    show ((TemplateStore.list (σ := DirectoryStore)).exec _ d).1 = _
    rw [exec_list hat]
  · rw [served_eq hdot h, hmem]

theorem served_of_changesOnly {A : Bytes → Prop} (hc : ChangesOnly q A d d')
    (hname : ¬ A (encode (fileName extension name))) :
    served dir extension d' name = served dir extension d name := by
  rw [served_eq hdot h, served_eq hdot (h.of_changesOnly hc)]
  exact shown_congr (hc.bytesAt hname)

theorem served_of_removed (hr : Removed extension q name d d') :
    (∀ n, n ≠ name → served dir extension d' n = served dir extension d n) ∧
      served dir extension d' name = .error (.notFound name) := by
  constructor
  · intro n hn
    exact served_of_changesOnly hdot h hr.changes fun heq => hn (encode_fileName_injective heq)
  · rw [served_eq hdot (h.of_changesOnly hr.changes)]
    exact shown_of_bytesAt_none hr.bytes

variable (htmp : extension ≠ "tmp")

include htmp

theorem served_of_drafted (hd : Drafted extension q t d d') (n : String) :
    served dir extension d' n = served dir extension d n :=
  served_of_changesOnly hdot h hd (encode_draftName_ne hdot htmp).symm

theorem served_of_published (hp : Published dir extension q t d d') :
    (∀ n, n ≠ t.name → served dir extension d' n = served dir extension d n) ∧
      served dir extension d' t.name = .ok t := by
  constructor
  · intro n hn
    exact served_of_changesOnly hdot h hp.changes (not_storing hdot htmp hn.symm)
  · rw [served_eq hdot (h.of_changesOnly hp.changes)]
    exact (shown_eq_ok_iff_of_bytesAt hp.valid.isDocumentName hp.bytes).mpr
      ⟨rfl, rfl, hp.room.length_lt⟩

end

end Served

/-- At every stage of a call the templates are there as the call may leave them. -/
theorem survives_of_stage {lookup : UpdateLookup} {I : DirectoryStore → Disk → Prop} {c : Call}
    (hdot : '.' ∉ extension.toList) (htmp : extension ≠ "tmp") (h : PlainFolder dir d q)
    (hstage : Stage dir extension q I lookup d c d') :
    c.Survives lookup (served dir extension d) (served dir extension d') := by
  cases hstage with
  | untouched => exact Call.survives_of_same fun _ => rfl
  | drafted _ hd | redrafted _ _ hd =>
    exact Call.survives_of_same (served_of_drafted hdot h htmp hd)
  | created _ hp =>
    obtain ⟨hothers, hcomplete⟩ := served_of_published hdot h htmp hp
    exact ⟨hothers, .inr hcomplete⟩
  | updated _ _ hp =>
    obtain ⟨hothers, hcomplete⟩ := served_of_published hdot h htmp hp
    exact ⟨fun n _ hn => hothers n hn, .inr hcomplete, fun hold => .inl (hothers _ hold)⟩
  | @renamed name t d₁ _ _ hne _ hp hr =>
    obtain ⟨hothers, hcomplete⟩ := served_of_published hdot h htmp hp
    obtain ⟨hkept, hgone⟩ := served_of_removed hdot (h.of_changesOnly hp.changes) hr
    have hnew := (hkept t.name hne).trans hcomplete
    exact ⟨fun n hold hn => (hkept n hold).trans (hothers n hn), .inr hnew,
      fun _ => .inr ⟨hgone, hnew⟩⟩
  | deleted _ hr =>
    obtain ⟨hkept, hgone⟩ := served_of_removed hdot h hr
    exact ⟨hkept, .inr hgone⟩

/-- Wherever a call breaks off, a store that is opened anew serves what the call may leave, and
lists what it serves. -/
theorem served_after_breakOff (hdot : '.' ∉ extension.toList) (hslash : '/' ∉ extension.toList)
    (htmp : extension ≠ "tmp") (h : Arises dir extension q s d) (lookup : UpdateLookup) (c : Call)
    (hb : (c.answer lookup).BreaksOff s d d') :
    c.Survives lookup (served dir extension d) (served dir extension d') ∧
      ∃ ts, afresh dir extension Catalog.list d' = .ok ts ∧
        (ts.Pairwise fun t u => t.name < u.name) ∧
        ∀ t, t ∈ ts ↔ served dir extension d' t.name = .ok t := by
  have hworks := worksIn_of_arises hslash h
  have hfolder : PlainFolder dir d' q :=
    hworks.folder.of_changesOnly ((encloses_call hslash hworks lookup c).anywhere d' hb)
  have hstage := (stage_of_call invariant_worksIn hslash hworks lookup c).anywhere d' hb
  exact ⟨survives_of_stage hdot htmp hworks.folder hstage, listed_eq hdot hfolder⟩

/-- The disk after `n` requests of a renaming, and one byte of the write that may come next. -/
def renamedUpTo (n : Nat) : Disk :=
  (((Call.update "a" ⟨"b", "BB"⟩).answer .routeName).start (rootStore 1)).stopped 1 n sampleDisk

/-- A renaming that breaks off within its write serves the old template; one that breaks off before
its removal serves both. -/
theorem renamed_sample :
    (served (rootStore 1).dir "html" (renamedUpTo 8) "a" = .ok ⟨"a", "A"⟩ ∧
      served (rootStore 1).dir "html" (renamedUpTo 8) "b" = .error (.notFound "b") ∧
      (Call.update "a" ⟨"b", "BB"⟩).Survives .routeName
        (served (rootStore 1).dir "html" sampleDisk)
        (served (rootStore 1).dir "html" (renamedUpTo 8))) ∧
    (served (rootStore 1).dir "html" (renamedUpTo 10) "a" = .ok ⟨"a", "A"⟩ ∧
      served (rootStore 1).dir "html" (renamedUpTo 10) "b" = .ok ⟨"b", "BB"⟩ ∧
      (Call.update "a" ⟨"b", "BB"⟩).Survives .routeName
        (served (rootStore 1).dir "html" sampleDisk)
        (served (rootStore 1).dir "html" (renamedUpTo 10))) := by
  have hsurvives := fun n => (served_after_breakOff (by decide) (by decide) (by decide)
    arises_sample .routeName (.update "a" ⟨"b", "BB"⟩) (Program.breaksOff_stopped 1 n _ _)).1
  exact ⟨⟨rfl, rfl, hsurvives 8⟩, rfl, rfl, hsurvives 10⟩

end DirectoryStore

end MailMerge
