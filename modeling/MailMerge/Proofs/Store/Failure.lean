import MailMerge.Proofs.Disk.Linkless
import MailMerge.Proofs.Enclosure

/-! # What a failed change leaves

A change that fails leaves the disk as it was, but for two cases. A draft that cannot be given the
name of its document is left behind. A template that was stored under a new name stays there if the
document of the old name cannot be taken away.
-/

namespace MailMerge

open Disk Utf8 StoreM

namespace DirectoryStore

variable {name : String} {q : Place} {s s' : DirectoryStore} {d d' : Disk} {t u : Template}
  {e : TemplateError}

def Deed.stored? : Deed → Option Template
  | create t => some t
  | update _ t => some t
  | seedDefault => some Template.seed
  | list | get _ | contains _ | delete _ => none

/-- The draft of the template was written and could not be given the name of the document. -/
structure Unnamed (s : DirectoryStore) (t : Template) (d d' : Disk) : Prop where
  valid : ValidName t.name
  written : d.write (s.draftPathFor t.name) (encode t.html) = .ok d'
  refused : ∃ fault, d'.rename (s.draftPathFor t.name) (s.pathFor t.name) = .error fault

/-- The template was stored under a new name, and the document of the old name could not be taken
away. -/
structure HalfRenamed (s : DirectoryStore) (name : String) (t : Template) (d d' : Disk) : Prop where
  renamed : t.name ≠ name
  valid : ValidName t.name
  stored : ∃ d₁, d.write (s.draftPathFor t.name) (encode t.html) = .ok d₁ ∧
    d₁.rename (s.draftPathFor t.name) (s.pathFor t.name) = .ok d'
  refused : ∃ fault, d'.remove (s.pathFor name) = .error fault

/-- What lets a store read its folder, and goes on to hold when documents are stored and taken
away. -/
structure Steady (q : Place) (I : DirectoryStore → Disk → Prop) : Prop where
  leads : ∀ {s d}, I s d → d.resolve true s.dir = .ok q
  folder : ∀ {s d}, I s d → d.HasFolder q
  refreshed : ∀ {s d}, I s d → I (s.refreshed d q) d
  stored : ∀ {s d d' t}, I s d → Stores s t d (.ok ()) d' → I s d'
  removed : ∀ {s d d' name u}, I s d → s.index.find name = .ok u →
    d.remove (s.pathFor name) = .ok d' → I s d'

theorem steady_worksIn {dir : Path} {extension : String} (hslash : '/' ∉ extension.toList) :
    Steady q (WorksIn dir extension q) where
  leads h := h.leads
  folder h := h.folder.folder
  refreshed := worksIn_refreshed
  stored h hs := by
    cases hs with
    | published hvalid hwrite hrename =>
      rw [h.draftPathFor_eq] at hwrite hrename
      rw [h.pathFor_eq] at hrename
      exact h.of_changesOnly (published_of_rename h.folder hslash hvalid hwrite hrename).changes
  removed h hfind hremove :=
    h.of_changesOnly (removed_of_remove h (h.isStep_of_find hfind) hremove).changes

theorem steady_linkless : Steady q fun s d => LinklessFolder s.dir d q where
  leads h := h.leads
  folder h := h.folder
  refreshed h := by rwa [dir_refreshed]
  stored h hs := by
    cases hs with
    | published _ hwrite hrename => exact h.write_rename hwrite hrename
  removed h _ hremove := h.remove hremove

theorem halfRenamed_of_refreshed (hr : HalfRenamed (s.refreshed d q) name t d d') :
    HalfRenamed s name t d d' := by
  rcases refreshed_eq s d q with heq | heq
  · rwa [heq] at hr
  · rw [heq] at hr
    exact ⟨hr.renamed, hr.valid, hr.stored, hr.refused⟩

theorem unnamed_of_refreshed (hr : Unnamed (s.refreshed d q) t d d') : Unnamed s t d d' := by
  rcases refreshed_eq s d q with heq | heq
  · rwa [heq] at hr
  · rw [heq] at hr
    exact ⟨hr.valid, hr.written, hr.refused⟩

theorem leaves_writeDocument {α : Type} {f : Unit → StoreM DirectoryStore α}
    (hfail : (writeDocument t >>= f).exec s d = (.error e, s', d')) :
    d' = d ∨ Unnamed s t d d' ∨
      ∃ d₁, Stores s t d (.ok ()) d₁ ∧ (f ()).exec s d₁ = (.error e, s', d') := by
  rcases cases_of_exec_bind hfail with ⟨e', hexec, -⟩ | ⟨_, s₁, d₁, hexec, hrest⟩
  · obtain ⟨-, hstores⟩ := stores_of_exec hexec
    cases hstores with
    | refused | unwritten => exact .inl rfl
    | drafted hvalid hwrite hrename => exact .inr (.inl ⟨hvalid, hwrite, _, hrename⟩)
  · obtain ⟨rfl, hstores⟩ := stores_of_exec hexec
    exact .inr (.inr ⟨d₁, hstores, hrest⟩)

theorem leaves_removeDocument {α : Type} {f : Unit → StoreM DirectoryStore α}
    (hfail : (removeDocument name >>= f).exec s d = (.error e, s', d')) :
    (d' = d ∧ ∃ fault, d.remove (s.pathFor name) = .error fault) ∨
      ∃ d₁, d.remove (s.pathFor name) = .ok d₁ ∧ (f ()).exec s d₁ = (.error e, s', d') := by
  rcases cases_of_exec_bind hfail with ⟨e', hexec, -⟩ | ⟨_, s₁, d₁, hexec, hrest⟩
  · obtain ⟨-, ⟨fault, hfault, -, rfl⟩ | ⟨hr, -⟩⟩ := removal_of_exec hexec
    · exact .inl ⟨rfl, fault, hfault⟩
    · simp at hr
  · obtain ⟨rfl, ⟨fault, -, hr, -⟩ | ⟨-, hremove⟩⟩ := removal_of_exec hexec
    · simp at hr
    · exact .inr ⟨d₁, hremove, hrest⟩

section Deeds

variable {I : DirectoryStore → Disk → Prop} (hI : Steady q I) (h : I s d)

include hI h

/-- Once everything is done, reading the folder again does not fail. -/
theorem not_failed_reload {α : Type} (a : α) :
    (do reload; pure a : StoreM DirectoryStore α).exec s d ≠ (.error e, s', d') := by
  rw [exec_bind, exec_reload_of_leads (hI.leads h) (hI.folder h), followUp_ok, exec_pure]
  simp

theorem exec_refresh_find {α : Type} {f : Template → StoreM DirectoryStore α}
    (hfail : (do refresh; let u ← find name; f u).exec s d = (.error e, s', d')) :
    d' = d ∨ ∃ u, (s.refreshed d q).index.find name = .ok u ∧
      (f u).exec (s.refreshed d q) d = (.error e, s', d') := by
  rw [exec_bind, exec_refresh_of_leads (hI.leads h) (hI.folder h), followUp_ok, exec_bind,
    exec_find] at hfail
  cases hfind : (s.refreshed d q).index.find name with
  | error e' =>
    rw [hfind, followUp_error, Prod.mk.injEq, Prod.mk.injEq] at hfail
    exact .inl hfail.2.2.symm
  | ok u =>
    rw [hfind, followUp_ok] at hfail
    exact .inr ⟨u, rfl, hfail⟩

theorem leaves_create (hfail : (TemplateStore.create t).exec s d = (.error e, s', d')) :
    d' = d ∨ Unnamed s t d d' := by
  rcases leaves_writeDocument hfail with hd | hd | ⟨d₁, hstores, hfail⟩
  · exact .inl hd
  · exact .inr hd
  · exact absurd hfail (not_failed_reload hI (hI.stored h hstores) t)

theorem leaves_delete (hfail : (TemplateStore.delete name).exec s d = (.error e, s', d')) :
    d' = d := by
  rcases exec_refresh_find hI h hfail with hd | ⟨u, hfind, hfail⟩
  · exact hd
  rcases leaves_removeDocument hfail with ⟨hd, -⟩ | ⟨d₁, hremove, hfail⟩
  · exact hd
  · exact absurd hfail (not_failed_reload hI (hI.removed (hI.refreshed h) hfind hremove) u)

theorem leaves_update (hfail : (TemplateStore.update name t).exec s d = (.error e, s', d')) :
    d' = d ∨ Unnamed s t d d' ∨ HalfRenamed s name t d d' := by
  rcases exec_refresh_find hI h hfail with hd | ⟨u, hfind, hfail⟩
  · exact .inl hd
  rcases leaves_writeDocument hfail with hd | hd | ⟨d₁, hstores, hfail⟩
  · exact .inl hd
  · exact .inr (.inl (unnamed_of_refreshed hd))
  have h₁ := hI.stored (hI.refreshed h) hstores
  dsimp only at hfail
  split at hfail
  · rename_i hne
    rcases leaves_removeDocument hfail with ⟨rfl, hrefused⟩ | ⟨d₂, hremove, hfail⟩
    · cases hstores with
      | published hvalid hwrite hrename =>
        exact .inr (.inr (halfRenamed_of_refreshed ⟨hne, hvalid, ⟨_, hwrite, hrename⟩, hrefused⟩))
    · exact absurd hfail (not_failed_reload hI (hI.removed h₁ hfind hremove) t)
  · exact absurd hfail (not_failed_reload hI h₁ t)

theorem leaves_seedDefault
    (hfail : (TemplateStore.seedDefault (σ := DirectoryStore)).exec s d = (.error e, s', d')) :
    d' = d ∨ Unnamed s Template.seed d d' := by
  rw [TemplateStore.seedDefault, exec_bind, TemplateStore.exec_contains,
    exec_get_of_leads (hI.leads h) (hI.folder h)] at hfail
  cases hpresent : TemplateStore.presence ((s.refreshed d q).index.find defaultName) with
  | error e' =>
    rw [hpresent, followUp_error, Prod.mk.injEq, Prod.mk.injEq] at hfail
    exact .inl hfail.2.2.symm
  | ok present =>
    rw [hpresent, followUp_ok] at hfail
    cases present with
    | true => simp at hfail
    | false =>
      rw [if_neg (by decide)] at hfail
      exact (leaves_create hI (hI.refreshed h) (exec_eq_error_of_map hfail)).imp_right
        unnamed_of_refreshed

end Deeds

section Folder

theorem hasRoom_fileName_of_draft {dir : Path} {extension : String}
    (hfile : IsStep (encode (fileName extension name)))
    (hdraft : HasRoom dir (encode (draftName extension name))) :
    HasRoom dir (encode (fileName extension name)) := by
  have hlen : (encode (fileName extension name)).length ≤
      (encode (draftName extension name)).length := by
    rw [encode_draftName, List.length_append]
    omega
  refine ⟨⟨hfile, fun hzero => hdraft.name.no_zero ?_, Nat.le_trans hlen hdraft.name.length_le⟩,
    Nat.lt_of_le_of_lt (Path.length_join_mono hfile hdraft.name.toIsStep hlen) hdraft.length_lt⟩
  rw [encode_draftName]
  exact List.mem_append_left _ hzero

variable (hfolder : PlainFolder s.dir d q) (hslash : '/' ∉ s.extension.toList)

include hfolder hslash

theorem Unnamed.drafted (h : Unnamed s t d d') :
    d.HasFolder (encode (fileName s.extension t.name) :: q) ∧ Drafted s.extension q t d d' := by
  have hdoc := h.valid.isDocumentName
  have hdraft := isStep_draftName hdoc h.valid.slash_not_mem hslash
  have hfile := isStep_fileName hdoc h.valid.slash_not_mem hslash
  obtain ⟨hroom, hchanges, mode, stamp, hx⟩ := hfolder.write hdraft h.written
  obtain ⟨fault, hfault⟩ := h.refused
  have hrename := (hfolder.of_changesOnly hchanges).rename_eq hroom
    (hasRoom_fileName_of_draft hfile hroom) encode_draftName_ne_fileName hx
  refine ⟨?_, hchanges⟩
  by_cases htaken : d'.isFolderAt (encode (fileName s.extension t.name) :: q) = true
  · obtain ⟨stamp, hstamp⟩ := isFolderAt_iff.mp htaken
    rw [hchanges.child encode_draftName_ne_fileName.symm] at hstamp
    exact ⟨stamp, hstamp⟩
  · rw [if_neg htaken] at hrename
    exact absurd (hfault.symm.trans hrename) (by simp)

theorem HalfRenamed.published (h : HalfRenamed s name t d d') :
    Published s.dir s.extension q t d d' := by
  obtain ⟨d₁, hwrite, hrename⟩ := h.stored
  exact published_of_rename hfolder hslash h.valid hwrite hrename

end Folder

theorem Deed.leaves {I : DirectoryStore → Disk → Prop} (hI : Steady q I) (h : I s d)
    (deed : Deed) (hfail : deed.dealing.exec s d = (.error e, s', d')) :
    d' = d ∨ (∃ t, deed.stored? = some t ∧ Unnamed s t d d') ∨
      ∃ name t, deed = .update name t ∧ HalfRenamed s name t d d' := by
  have looked {α : Type} {m : StoreM DirectoryStore α} (hm : m.Looks)
      (hfail : m.exec s d = (.error e, s', d')) : d' = d :=
    (congrArg (·.2.2) hfail).symm.trans (hm.exec s d)
  cases deed with
  | list => exact .inl (looked looks_list (exec_eq_error_of_map hfail))
  | get name => exact .inl (looked (looks_getTemplate name) (exec_eq_error_of_map hfail))
  | contains name => exact .inl (looked (looks_contains name) (exec_eq_error_of_map hfail))
  | create t =>
    rcases leaves_create hI h (exec_eq_error_of_map hfail) with hd | hd
    · exact .inl hd
    · exact .inr (.inl ⟨t, rfl, hd⟩)
  | update name t =>
    rcases leaves_update hI h (exec_eq_error_of_map hfail) with hd | hd | hd
    · exact .inl hd
    · exact .inr (.inl ⟨t, rfl, hd⟩)
    · exact .inr (.inr ⟨name, t, rfl, hd⟩)
  | delete name => exact .inl (leaves_delete hI h (exec_eq_error_of_map hfail))
  | seedDefault =>
    rcases leaves_seedDefault hI h (exec_eq_error_of_map hfail) with hd | hd
    · exact .inl hd
    · exact .inr (.inl ⟨Template.seed, rfl, hd⟩)

/-- A dealing that fails leaves the disk as it was, unless the draft of a template was written and
could not take the name of the document, or a template was stored under a new name and the document
of the old one could not be taken away. In both cases only files of that template are affected. The
store may have been asked for anything before, and the disk may have changed in between. -/
theorem leaves_of_failed
    (hlinks : Arises s.dir s.extension q s d ∧ '/' ∉ s.extension.toList ∨ d.Linkless)
    (hfolder : PlainFolder s.dir d q) {deed : Deed}
    (hfail : deed.dealing.exec s d = (.error e, s', d')) :
    d' = d ∨
      (∃ t, deed.stored? = some t ∧ Unnamed s t d d' ∧ ('/' ∉ s.extension.toList →
        d.HasFolder (encode (fileName s.extension t.name) :: q) ∧
          Drafted s.extension q t d d')) ∨
      ∃ name t, deed = .update name t ∧ HalfRenamed s name t d d' ∧
        ('/' ∉ s.extension.toList → Published s.dir s.extension q t d d') := by
  have hleaves : d' = d ∨ (∃ t, deed.stored? = some t ∧ Unnamed s t d d') ∨
      ∃ name t, deed = .update name t ∧ HalfRenamed s name t d d' := by
    rcases hlinks with ⟨harises, hslash⟩ | hlinkless
    · exact deed.leaves (steady_worksIn hslash) (worksIn_of_arises hslash harises) hfail
    · exact deed.leaves steady_linkless ⟨hlinkless, hfolder.leads, hfolder.folder⟩ hfail
  rcases hleaves with hd | ⟨t, ht, h⟩ | ⟨name, t, ht, h⟩
  · exact .inl hd
  · exact .inr (.inl ⟨t, ht, h, h.drafted hfolder⟩)
  · exact .inr (.inr ⟨name, t, ht, h, h.published hfolder⟩)

def blockedDisk : Disk where
  entries := [([], .folder 0), ([encode "a.html"], .folder 0)]
  here := []
  now := 1
  distinct := by decide

theorem linkless_blockedDisk : blockedDisk.Linkless := by
  intro p target hx
  have hmem := mem_entries_iff.mpr hx
  simp [blockedDisk] at hmem

theorem plainFolder_blockedDisk : PlainFolder (rootStore 1).dir blockedDisk [] := by
  have hroot : blockedDisk.HasFolder [] := ⟨0, rfl⟩
  refine ⟨resolve_slashes hroot (by decide) (by decide), hroot, fun f x hx => ?_,
    fun f => linkless_blockedDisk [f]⟩
  have hmem := mem_entries_iff.mpr hx
  simp only [blockedDisk, List.mem_cons, Prod.mk.injEq, List.cons.injEq, and_true, reduceCtorEq,
    false_and, List.not_mem_nil, or_false, false_or] at hmem
  obtain ⟨rfl, -⟩ := hmem
  decide

/-- The document cannot take the place of the folder. Its draft stays, and all else is as it was. -/
theorem leaves_blockedDisk :
    ∃ e s' d', (Deed.create ⟨"a", "x"⟩).dealing.exec (rootStore 1) blockedDisk =
      (.error e, s', d') ∧ d' ≠ blockedDisk ∧ Drafted "html" [] ⟨"a", "x"⟩ blockedDisk d' := by
  obtain ⟨e, s', d', hfail⟩ : ∃ e s' d', (Deed.create ⟨"a", "x"⟩).dealing.exec (rootStore 1)
      blockedDisk = (.error e, s', d') := ⟨_, _, _, rfl⟩
  have hdraft : d'.bytesAt [encode "a.html.tmp"] = some (encode "x") :=
    congrArg (·.2.2.bytesAt [encode "a.html.tmp"]) hfail.symm
  have hchanged : d' ≠ blockedDisk := by
    rintro rfl
    exact absurd hdraft (by decide)
  rcases leaves_of_failed (.inr linkless_blockedDisk) plainFolder_blockedDisk hfail with
    hd | ⟨t, ht, -, hdrafted⟩ | ⟨name, t, ht, -⟩
  · exact absurd hd hchanged
  · cases ht
    exact ⟨e, s', d', hfail, hchanged, (hdrafted (by decide)).2⟩
  · exact nomatch ht

/-- A root folder with two documents, the second one stamped ahead of the clock. -/
def aheadDisk : Disk where
  entries := [([], .folder 0), ([encode "a.html"], .file (encode "A") 0o644 0),
    ([encode "b.html"], .file (encode "B") 0o644 9)]
  here := []
  now := 1
  distinct := by decide

def renamedDisk : Disk :=
  aheadDisk.change (.rename (Path.ofString "/a.html") (Path.ofString "/c.html"))

/-- A store that has read the folder before the document got another name. -/
def outdatedStore : DirectoryStore :=
  ((TemplateStore.list (σ := DirectoryStore)).exec (rootStore 1) aheadDisk).2.1

/-- A draft is left behind where a folder has the name of the document, and a template under a new
name where the document of the old one has gone unnoticed. -/
theorem failed_leaves_files :
    (∃ e s' d', (TemplateStore.create ⟨"a", "x"⟩).exec (rootStore 1) blockedDisk =
        (.error e, s', d') ∧ blockedDisk.bytesAt [encode "a.html.tmp"] = none ∧
        d'.bytesAt [encode "a.html.tmp"] = some (encode "x")) ∧
      ∃ e s' d', (TemplateStore.update "a" ⟨"d", "D"⟩).exec outdatedStore renamedDisk =
        (.error e, s', d') ∧ renamedDisk.bytesAt [encode "d.html"] = none ∧
        d'.bytesAt [encode "d.html"] = some (encode "D") :=
  ⟨⟨_, _, _, rfl, rfl, rfl⟩, _, _, _, rfl, rfl, rfl⟩

end DirectoryStore

end MailMerge
