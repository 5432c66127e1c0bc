import MailMerge.Proofs.Disk.PlainFolder
import MailMerge.Proofs.Store.Confinement

/-! # Stages of a change

A store in a folder without symbolic links writes a draft, gives it the name of a document, and
takes a document away. However a change to the store ends and wherever it breaks off, it has come as
far as one of these stages; what each stage has done to the folder is told here once for all.
-/

namespace MailMerge

open Disk Utf8 StoreM

namespace DirectoryStore

variable {dir : Path} {extension name : String} {q : Place} {s s' : DirectoryStore}
  {d d' d'' : Disk} {t : Template}

/-- The store deals with the folder at `q`, in which no symbolic link lies. Every template of its
index has a name that leads no further than into that folder. -/
structure WorksIn (dir : Path) (extension : String) (q : Place) (s : DirectoryStore) (d : Disk) :
    Prop where
  dir_eq : s.dir = dir
  extension_eq : s.extension = extension
  folder : PlainFolder dir d q
  keys : ∀ n u, s.index.templates.get? n = some u → IsStep (encode (fileName extension n))

/-- At most the draft of the template has been written. -/
def Drafted (extension : String) (q : Place) (t : Template) (d d' : Disk) : Prop :=
  ChangesOnly q (· = encode (draftName extension t.name)) d d'

/-- The document of the template is complete. -/
structure Published (dir : Path) (extension : String) (q : Place) (t : Template) (d d' : Disk) :
    Prop where
  valid : ValidName t.name
  room : HasRoom dir (encode (fileName extension t.name))
  changes : ChangesOnly q (storing extension t) d d'
  bytes : d'.bytesAt (encode (fileName extension t.name) :: q) = some (encode t.html)

structure Removed (extension : String) (q : Place) (name : String) (d d' : Disk) : Prop where
  changes : ChangesOnly q (· = encode (fileName extension name)) d d'
  bytes : d'.bytesAt (encode (fileName extension name) :: q) = none

namespace WorksIn

theorem of_changesOnly {A : Bytes → Prop} (h : WorksIn dir extension q s d)
    (hc : ChangesOnly q A d d') : WorksIn dir extension q s d' :=
  ⟨h.dir_eq, h.extension_eq, h.folder.of_changesOnly hc, h.keys⟩

theorem leads (h : WorksIn dir extension q s d) : d.resolve true s.dir = .ok q :=
  h.dir_eq ▸ h.folder.leads

theorem pathFor_eq (h : WorksIn dir extension q s d) (name : String) :
    s.pathFor name = dir.join ⟨encode (fileName extension name)⟩ := by
  rw [DirectoryStore.pathFor_eq, h.dir_eq, h.extension_eq]

theorem draftPathFor_eq (h : WorksIn dir extension q s d) (name : String) :
    s.draftPathFor name = dir.join ⟨encode (draftName extension name)⟩ := by
  rw [draftPathFor, h.dir_eq, h.extension_eq]
  rfl

end WorksIn

theorem worksIn_of_fresh (h : PlainFolder dir d q) :
    WorksIn dir extension q ⟨dir, extension, {}⟩ d := ⟨rfl, rfl, h, nofun⟩

section Reading

theorem get?_of_mem_docsAt {doc : String × Path × Info} (h : doc ∈ s.docsAt d q) :
    '.' ∉ s.extension.toList ∧
      ∃ x, d.get? (encode (fileName s.extension doc.1) :: q) = some x := by
  simp only [docsAt, documents, List.filterMap_map, List.mem_filterMap, Function.comp] at h
  obtain ⟨⟨f, x⟩, hmem, h⟩ := h
  simp only at h
  split at h
  · rename_i n hn
    obtain ⟨hdot, -, rfl⟩ := of_documentName_eq_some hn
    split at h
    · obtain rfl := Option.some.inj h
      exact ⟨hdot, x, mem_children_iff.mp hmem⟩
    · simp at h
  · simp at h

theorem exists_of_get?_readAll {docs : List (String × Path × Info)} {n : String} {u : Template}
    (h : ((readAll docs).run d).1.templates.get? n = some u) : ∃ doc ∈ docs, doc.1 = n := by
  induction docs with
  | nil => simp [readAll] at h
  | cons doc docs ih =>
    rw [readAll, Program.run_bind, Program.run_readText, Program.run_bind] at h
    by_cases hn : n = doc.1
    · exact ⟨doc, List.mem_cons_self, hn.symm⟩
    · have hrest : ((readAll docs).run d).1.templates.get? n = some u := by
        cases htext : d.readText doc.2.1 <;> simpa [htext, hn] using h
      obtain ⟨e, he, heq⟩ := ih hrest
      exact ⟨e, List.mem_cons_of_mem _ he, heq⟩

theorem worksIn_reread (h : WorksIn dir extension q s d) :
    WorksIn dir extension q (s.reread d q) d := by
  refine ⟨h.dir_eq, h.extension_eq, h.folder, fun n u hu => ?_⟩
  obtain ⟨doc, hdoc, rfl⟩ := exists_of_get?_readAll hu
  obtain ⟨-, x, hx⟩ := get?_of_mem_docsAt hdoc
  rw [h.extension_eq] at hx
  exact (h.folder.names _ x hx).toIsStep

theorem worksIn_refreshed (h : WorksIn dir extension q s d) :
    WorksIn dir extension q (s.refreshed d q) d := by
  rcases refreshed_eq s d q with heq | heq
  · rwa [heq]
  · rw [heq]
    exact worksIn_reread h

theorem WorksIn.exec_refresh (h : WorksIn dir extension q s d) :
    refresh.exec s d = (.ok (), s.refreshed d q, d) := exec_refresh_of_leads h.leads h.folder.folder

theorem WorksIn.exec_reload (h : WorksIn dir extension q s d) :
    reload.exec s d = (.ok (), s.reread d q, d) := exec_reload_of_leads h.leads h.folder.folder

theorem WorksIn.isStep_of_find (h : WorksIn dir extension q s d) {u : Template}
    (hfind : s.index.find name = .ok u) : IsStep (encode (fileName extension name)) := by
  unfold Index.find at hfind
  split at hfind
  · exact h.keys name _ ‹_›
  · split at hfind <;> simp at hfind

end Reading

section Ends

/-- How storing a template may end: with which answer, and on which disk. -/
inductive Stores (s : DirectoryStore) (t : Template) (d : Disk) :
    Except TemplateError Unit → Disk → Prop
  | refused {e : TemplateError} (hcheck : checkName t.name = .error e) : Stores s t d (.error e) d
  | unwritten {fault : Fault}
    (hwrite : d.write (s.draftPathFor t.name) (encode t.html) = .error fault) :
    Stores s t d (.error (.storage (s.draftPathFor t.name) fault)) d
  | drafted {d' : Disk} {fault : Fault} (hvalid : ValidName t.name)
    (hwrite : d.write (s.draftPathFor t.name) (encode t.html) = .ok d')
    (hrename : d'.rename (s.draftPathFor t.name) (s.pathFor t.name) = .error fault) :
    Stores s t d (.error (.storage (s.pathFor t.name) fault)) d'
  | published {d₁ d' : Disk} (hvalid : ValidName t.name)
    (hwrite : d.write (s.draftPathFor t.name) (encode t.html) = .ok d₁)
    (hrename : d₁.rename (s.draftPathFor t.name) (s.pathFor t.name) = .ok d') :
    Stores s t d (.ok ()) d'

variable {r : Except TemplateError Unit}

theorem stores_of_exec (hexec : (writeDocument t).exec s d = (r, s', d')) :
    s' = s ∧ Stores s t d r d' := by
  rw [writeDocument] at hexec
  cases hcheck : checkName t.name with
  | error e =>
    obtain ⟨rfl, rfl, rfl⟩ : .error e = r ∧ s = s' ∧ d = d' := by simpa [hcheck] using hexec
    exact ⟨rfl, .refused hcheck⟩
  | ok =>
    have hvalid := checkName_eq_ok_iff.mp hcheck
    simp only [hcheck, exec_bind, exec_ofExcept, followUp_ok, StoreM.exec_get, exec_write] at hexec
    cases hwrite : d.write (s.draftPathFor t.name) (encode t.html) with
    | error fault =>
      simp only [hwrite, settle, mapError_error, followUp_error, Prod.mk.injEq] at hexec
      obtain ⟨rfl, rfl, rfl⟩ := hexec
      exact ⟨rfl, .unwritten hwrite⟩
    | ok d₁ =>
      simp only [hwrite, settle, mapError_ok, followUp_ok, exec_rename] at hexec
      cases hrename : d₁.rename (s.draftPathFor t.name) (s.pathFor t.name) with
      | error fault =>
        simp only [hrename, mapError_error, Prod.mk.injEq] at hexec
        obtain ⟨rfl, rfl, rfl⟩ := hexec
        exact ⟨rfl, .drafted hvalid hwrite hrename⟩
      | ok d₂ =>
        simp only [hrename, mapError_ok, Prod.mk.injEq] at hexec
        obtain ⟨rfl, rfl, rfl⟩ := hexec
        exact ⟨rfl, .published hvalid hwrite hrename⟩

theorem removal_of_exec (hexec : (removeDocument name).exec s d = (r, s', d')) :
    s' = s ∧ ((∃ fault, d.remove (s.pathFor name) = .error fault ∧
        r = .error (.storage (s.pathFor name) fault) ∧ d' = d) ∨
      r = .ok () ∧ d.remove (s.pathFor name) = .ok d') := by
  rw [removeDocument] at hexec
  simp only [exec_bind, StoreM.exec_get, followUp_ok, exec_remove] at hexec
  cases hremove : d.remove (s.pathFor name) with
  | error fault =>
    simp only [hremove, settle, mapError_error, Prod.mk.injEq] at hexec
    obtain ⟨rfl, rfl, rfl⟩ := hexec
    exact ⟨rfl, .inl ⟨fault, rfl, rfl, rfl⟩⟩
  | ok d₁ =>
    simp only [hremove, settle, mapError_ok, Prod.mk.injEq] at hexec
    obtain ⟨rfl, rfl, rfl⟩ := hexec
    exact ⟨rfl, .inr ⟨rfl, rfl⟩⟩

end Ends

section Writing

theorem encode_draftName_ne_fileName :
    encode (draftName extension name) ≠ encode (fileName extension name) := by
  intro heq
  have hlen := congrArg List.length heq
  rw [encode_draftName, List.length_append, List.length_cons] at hlen
  omega

theorem not_storing (hdot : '.' ∉ extension.toList) (htmp : extension ≠ "tmp")
    (hne : t.name ≠ name) : ¬ storing extension t (encode (fileName extension name)) := by
  rintro (heq | heq)
  · exact encode_draftName_ne hdot htmp heq.symm
  · exact hne (encode_fileName_injective heq).symm

theorem published_of_rename (h : PlainFolder dir d q) (hslash : '/' ∉ extension.toList)
    (hvalid : ValidName t.name)
    (hwrite : d.write (dir.join ⟨encode (draftName extension t.name)⟩) (encode t.html) = .ok d')
    (hrename : d'.rename (dir.join ⟨encode (draftName extension t.name)⟩)
      (dir.join ⟨encode (fileName extension t.name)⟩) = .ok d'') :
    Published dir extension q t d d'' := by
  have hdraft := isStep_draftName hvalid.isDocumentName hvalid.slash_not_mem hslash
  have hfile := isStep_fileName hvalid.isDocumentName hvalid.slash_not_mem hslash
  obtain ⟨-, hwritten, mode, stamp, hx⟩ := h.write hdraft hwrite
  obtain ⟨hroom, hrenamed, -, hy⟩ :=
    (h.of_changesOnly hwritten).rename hdraft hfile encode_draftName_ne_fileName hx hrename
  exact ⟨hvalid, hroom, (hwritten.mono fun _ => .inl).trans hrenamed,
    bytesAt_eq_some_iff.mpr ⟨mode, stamp, hy⟩⟩

variable (h : WorksIn dir extension q s d)

include h

section

variable (hslash : '/' ∉ extension.toList)

include hslash

theorem drafted_of_write {b : Bytes} (hvalid : ValidName t.name)
    (hwrite : d.write (s.draftPathFor t.name) b = .ok d') : Drafted extension q t d d' := by
  rw [h.draftPathFor_eq] at hwrite
  have hdraft := isStep_draftName hvalid.isDocumentName hvalid.slash_not_mem hslash
  exact (h.folder.write hdraft hwrite).2.1

theorem breaksOff_writeDocument (hb : (writeDocument t).BreaksOff s d d') :
    Drafted extension q t d d' ∨ Published dir extension q t d d' := by
  have hstart : Drafted extension q t d d := .refl q _ d
  rw [writeDocument] at hb
  rcases (looks_ofExcept _).of_bind hb with rfl | ⟨_, s₁, hcheck, hb⟩
  · exact .inl hstart
  simp only [exec_ofExcept, Prod.mk.injEq, and_true] at hcheck
  obtain ⟨hcheck, rfl⟩ := hcheck
  have hvalid := checkName_eq_ok_iff.mp hcheck
  rcases looks_get.of_bind hb with rfl | ⟨a, s₁, hget, hb⟩
  · exact .inl hstart
  simp only [StoreM.exec_get, Prod.mk.injEq, Except.ok.injEq, and_true] at hget
  obtain ⟨rfl, rfl⟩ := hget
  rcases hb.of_bind with hb | ⟨_, s₁, d₁, hexec, hb⟩
  · rcases breaksOff_write hb with rfl | ⟨k, hwrite⟩
    · exact .inl hstart
    · exact .inl (drafted_of_write h hslash hvalid hwrite)
  obtain ⟨rfl, hwrite⟩ := of_settle_eq_ok ((exec_write _ _ _ _ _).symm.trans hexec)
  rcases breaksOff_rename hb with rfl | hrename
  · exact .inl (drafted_of_write h hslash hvalid hwrite)
  · rw [h.draftPathFor_eq] at hwrite
    rw [h.draftPathFor_eq, h.pathFor_eq] at hrename
    exact .inr (published_of_rename h.folder hslash hvalid hwrite hrename)

variable {r : Except TemplateError Unit}

/-- A template that was stored has a complete document; where it was not, there may be a draft. -/
theorem stage_of_writeDocument (hexec : (writeDocument t).exec s d = (r, s', d')) :
    s' = s ∧ ((∃ e, r = .error e) ∧ Drafted extension q t d d' ∨
      r = .ok () ∧ Published dir extension q t d d') := by
  obtain ⟨rfl, hstores⟩ := stores_of_exec hexec
  refine ⟨rfl, ?_⟩
  cases hstores with
  | refused | unwritten => exact .inl ⟨⟨_, rfl⟩, .refl q _ d⟩
  | drafted hvalid hwrite => exact .inl ⟨⟨_, rfl⟩, drafted_of_write h hslash hvalid hwrite⟩
  | published hvalid hwrite hrename =>
    rw [h.draftPathFor_eq] at hwrite
    rw [h.draftPathFor_eq, h.pathFor_eq] at hrename
    exact .inr ⟨rfl, published_of_rename h.folder hslash hvalid hwrite hrename⟩

theorem WorksIn.of_writeDocument (hexec : (writeDocument t).exec s d = (r, s', d')) :
    s' = s ∧ WorksIn dir extension q s d' := by
  obtain ⟨rfl, hstage⟩ := stage_of_writeDocument h hslash hexec
  refine ⟨rfl, ?_⟩
  rcases hstage with ⟨-, hdrafted⟩ | ⟨-, hpub⟩
  · exact h.of_changesOnly hdrafted
  · exact h.of_changesOnly hpub.changes

end

section

variable (hstep : IsStep (encode (fileName extension name)))

include hstep

theorem removed_of_remove (hremove : d.remove (s.pathFor name) = .ok d') :
    Removed extension q name d d' := by
  rw [h.pathFor_eq] at hremove
  obtain ⟨hchanges, hnone⟩ := h.folder.remove hstep hremove
  exact ⟨hchanges, by simp [bytesAt, hnone]⟩

theorem breaksOff_removeDocument (hb : (removeDocument name).BreaksOff s d d') :
    d' = d ∨ Removed extension q name d d' := by
  rw [removeDocument] at hb
  rcases looks_get.of_bind hb with rfl | ⟨a, s₁, hget, hb⟩
  · exact .inl rfl
  simp only [StoreM.exec_get, Prod.mk.injEq, Except.ok.injEq, and_true] at hget
  obtain ⟨rfl, rfl⟩ := hget
  exact (breaksOff_remove hb).imp_right (removed_of_remove h hstep)

theorem WorksIn.of_removeDocument {r : Except TemplateError Unit}
    (hexec : (removeDocument name).exec s d = (r, s', d')) :
    s' = s ∧ WorksIn dir extension q s d' := by
  obtain ⟨rfl, ⟨fault, -, -, rfl⟩ | ⟨-, hremove⟩⟩ := removal_of_exec hexec
  · exact ⟨rfl, h⟩
  · exact ⟨rfl, h.of_changesOnly (removed_of_remove h hstep hremove).changes⟩

end

end Writing

/-- What holds of a store and its disk between its dealings. It goes on to hold if the store reads
the folder, if a draft is written, and if a template has been stored under a new name but the document
of the old one cannot be taken away. -/
structure Invariant (dir : Path) (extension : String) (q : Place)
    (I : DirectoryStore → Disk → Prop) : Prop where
  works : ∀ {s d}, I s d → WorksIn dir extension q s d
  refreshed : ∀ {s d}, I s d → I (s.refreshed d q) d
  reread : ∀ {s d}, WorksIn dir extension q s d → I (s.reread d q) d
  drafted : ∀ {s d d' t}, I s d → Drafted extension q t d d' → I s d'
  stuck : ∀ {s d d' t name u fault}, I s d → s.index.find name = .ok u → t.name ≠ name →
    Published dir extension q t d d' → d'.remove (s.pathFor name) = .error fault → I s d'

theorem invariant_worksIn : Invariant dir extension q (WorksIn dir extension q) where
  works h := h
  refreshed := worksIn_refreshed
  reread := worksIn_reread
  drafted h hd := h.of_changesOnly hd
  stuck h _ _ hp _ := h.of_changesOnly hp.changes

section Deeds

variable {I : DirectoryStore → Disk → Prop} {R : Disk → Prop}
  (hI : Invariant dir extension q I) (h : I s d)

include hI

theorem upholds_reload {α : Type} (a : α) (hd : R d) (h : WorksIn dir extension q s d) :
    Upholds I R (do reload; pure a) s d := by
  have hreload : I (reload.exec s d).2.1 d := by
    rw [h.exec_reload]
    exact hI.reread h
  exact upholds_look hd looks_reload hreload fun _ _ _ h' => upholds_of_looks hd (looks_pure a) h'

include h

theorem upholds_refresh_find {α : Type} {f : Template → StoreM DirectoryStore α} (hd : R d)
    (hok : ∀ s' u, I s' d → s'.index.find name = .ok u → Upholds I R (f u) s' d) :
    Upholds I R (do refresh; let u ← find name; f u) s d := by
  have hrefresh : I (refresh.exec s d).2.1 d := by
    rw [(hI.works h).exec_refresh]
    exact hI.refreshed h
  refine upholds_look hd looks_refresh hrefresh fun _ s₁ _ h₁ => ?_
  refine upholds_look hd (looks_find name) h₁ fun u s₂ hfind h₂ => ?_
  rw [exec_find, Prod.mk.injEq, Prod.mk.injEq] at hfind
  obtain ⟨hfound, rfl, -⟩ := hfind
  exact hok _ u h₂ hfound

theorem upholds_delete (hd : R d) (hremoved : ∀ d', Removed extension q name d d' → R d') :
    Upholds I R (TemplateStore.delete name) s d := by
  refine upholds_refresh_find hI h hd fun s₁ u h₁ hfound => ?_
  have hworks := hI.works h₁
  have hstep := hworks.isStep_of_find hfound
  apply upholds_bind
  · intro d' hb
    rcases breaksOff_removeDocument hworks hstep hb with rfl | hr
    · exact hd
    · exact hremoved d' hr
  · intro e s' d' hexec
    obtain ⟨rfl, ⟨fault, -, -, rfl⟩ | ⟨hr, -⟩⟩ := removal_of_exec hexec
    · exact h₁
    · simp at hr
  · intro _ s' d' hexec
    obtain ⟨rfl, ⟨fault, -, hr, -⟩ | ⟨-, hremove⟩⟩ := removal_of_exec hexec
    · simp at hr
    · have hr := removed_of_remove hworks hstep hremove
      exact upholds_reload hI u (hremoved _ hr) (hworks.of_changesOnly hr.changes)

variable (hslash : '/' ∉ extension.toList)
  (hdraft : ∀ d', Drafted extension q t d d' → R d')
  (hpublished : ∀ d', Published dir extension q t d d' → R d')

include hslash hdraft hpublished

theorem upholds_writeDocument {α : Type} {f : Unit → StoreM DirectoryStore α}
    (hok : ∀ d', Published dir extension q t d d' → Upholds I R (f ()) s d') :
    Upholds I R (writeDocument t >>= f) s d := by
  have hworks := hI.works h
  apply upholds_bind
  · intro d' hb
    rcases breaksOff_writeDocument hworks hslash hb with hdrafted | hpub
    · exact hdraft d' hdrafted
    · exact hpublished d' hpub
  · intro e s' d' hexec
    obtain ⟨rfl, ⟨-, hdrafted⟩ | ⟨hr, -⟩⟩ := stage_of_writeDocument hworks hslash hexec
    · exact hI.drafted h hdrafted
    · simp at hr
  · intro _ s' d' hexec
    obtain ⟨rfl, ⟨⟨e, hr⟩, -⟩ | ⟨-, hpub⟩⟩ := stage_of_writeDocument hworks hslash hexec
    · simp at hr
    · exact hok d' hpub

theorem upholds_create : Upholds I R (TemplateStore.create t) s d := by
  refine upholds_writeDocument hI h hslash hdraft hpublished fun d' hpub => ?_
  exact upholds_reload hI t (hpublished d' hpub) ((hI.works h).of_changesOnly hpub.changes)

theorem upholds_update
    (hremoved : t.name ≠ name → ∀ d₁ d₂, Published dir extension q t d d₁ →
      Removed extension q name d₁ d₂ → R d₂) :
    Upholds I R (TemplateStore.update name t) s d := by
  have hd : R d := hdraft d (.refl q _ d)
  refine upholds_refresh_find hI h hd fun s₁ u h₁ hfound => ?_
  have hworks := hI.works h₁
  have hstep := hworks.isStep_of_find hfound
  refine upholds_writeDocument hI h₁ hslash hdraft hpublished fun d₁ hpub => ?_
  have hworks₁ := hworks.of_changesOnly hpub.changes
  split
  · rename_i hne
    apply upholds_bind
    · intro d₂ hb
      rcases breaksOff_removeDocument hworks₁ hstep hb with rfl | hr
      · exact hpublished d₂ hpub
      · exact hremoved hne d₁ d₂ hpub hr
    · intro e s' d₂ hexec
      obtain ⟨rfl, ⟨fault, hfault, -, rfl⟩ | ⟨hr, -⟩⟩ := removal_of_exec hexec
      · exact hI.stuck h₁ hfound hne hpub hfault
      · simp at hr
    · intro _ s' d₂ hexec
      obtain ⟨rfl, ⟨fault, -, hr, -⟩ | ⟨-, hremove⟩⟩ := removal_of_exec hexec
      · simp at hr
      · have hr := removed_of_remove hworks₁ hstep hremove
        exact upholds_reload hI t (hremoved hne d₁ d₂ hpub hr) (hworks₁.of_changesOnly hr.changes)
  · exact upholds_reload hI t (hpublished d₁ hpub) hworks₁

end Deeds

/-- A root folder with a document, a document that is no text, and a folder with a document. -/
def sampleDisk : Disk where
  entries := [([], .folder 0), ([encode "a.html"], .file (encode "A") 0o644 0),
    ([encode "u.html"], .file [0xFF] 0o644 0), ([encode "sub"], .folder 0),
    ([encode "a.html", encode "sub"], .file (encode "S") 0o644 0)]
  here := []
  now := 1
  distinct := by decide

theorem plainFolder_sample : PlainFolder (rootStore 1).dir sampleDisk [] := by
  have hroot : sampleDisk.HasFolder [] := ⟨0, rfl⟩
  have hfiles : ∀ f x, sampleDisk.get? [f] = some x → IsName f ∧ ∀ target, x ≠ .link target := by
    intro f x hx
    have hmem := mem_entries_iff.mpr hx
    simp only [sampleDisk, List.mem_cons, List.not_mem_nil, or_false, Prod.mk.injEq,
      List.cons.injEq, and_true, reduceCtorEq, false_and, false_or, and_false] at hmem
    rcases hmem with ⟨rfl, rfl⟩ | ⟨rfl, rfl⟩ | ⟨rfl, rfl⟩
    · exact ⟨by decide, nofun⟩
    · exact ⟨by decide, nofun⟩
    · exact ⟨by decide, nofun⟩
  exact ⟨resolve_slashes hroot (by decide) (by decide), hroot, fun f x hx => (hfiles f x hx).1,
    fun f target hx => (hfiles f _ hx).2 target rfl⟩

end DirectoryStore

end MailMerge
