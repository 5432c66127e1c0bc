import MailMerge.Proofs.Store.Content
import MailMerge.Proofs.Store.Writing

/-! # Stores in a folder hold a content

A store that is alone with a folder keeps the laws of a content: what the folder shows is the
content, whatever its stamps are, and every change of the content goes through if there is room for
the names.
-/

namespace MailMerge

open Disk Utf8

namespace DirectoryStore

variable {dir : Path} {extension name : String} {c : Content} {s : DirectoryStore} {d d' : Disk}
  {q : Place} {t : Template}

/-- An extension under which no draft is taken for a document. -/
structure IsExtension (extension : String) : Prop where
  plain : '.' ∉ extension.toList
  no_slash : '/' ∉ extension.toList
  no_zero : '\x00' ∉ extension.toList
  ne_tmp : extension ≠ "tmp"

/-- There is room for the draft of a template of this name, whose file name is the longest one that
the store uses for it. -/
structure Fits (dir : Path) (extension name : String) : Prop where
  length_le : (encode name).length + 1 + (encode extension).length + 4 ≤ nameLimit
  path_lt : (dir.child (draftName extension name)).bytes.length < pathLimit

theorem length_fileName (extension name : String) :
    (encode (fileName extension name)).length =
      (encode name).length + 1 + (encode extension).length := by
  rw [encode_fileName, List.length_append, List.length_cons]
  omega

theorem length_draftName (extension name : String) :
    (encode (draftName extension name)).length =
      (encode name).length + 1 + (encode extension).length + 4 := by
  have htmp : (encode "tmp").length = 3 := by decide
  rw [encode_draftName, List.length_append, List.length_cons, length_fileName, htmp]

theorem zero_not_mem_fileName (hname : ValidName name) (hext : IsExtension extension) :
    0 ∉ encode (fileName extension name) := by
  rw [mem_encode_iff (c := '\x00') rfl (by decide)]
  simp [fileName, hname.zero_not_mem, hext.no_zero]

theorem zero_not_mem_draftName (hname : ValidName name) (hext : IsExtension extension) :
    0 ∉ encode (draftName extension name) := by
  rw [mem_encode_iff (c := '\x00') rfl (by decide)]
  simp [draftName, fileName, hname.zero_not_mem, hext.no_zero]

section Room

variable (hext : IsExtension extension) (hname : ValidName name) (hfits : Fits dir extension name)

include hext hname hfits

theorem hasRoom_draftName : HasRoom dir (encode (draftName extension name)) where
  name := by
    refine ⟨isStep_draftName hname.isDocumentName hname.slash_not_mem hext.no_slash,
      zero_not_mem_draftName hname hext, ?_⟩
    rw [length_draftName]
    exact hfits.length_le
  length_lt := hfits.path_lt

theorem hasRoom_fileName : HasRoom dir (encode (fileName extension name)) := by
  have hstep := isStep_fileName hname.isDocumentName hname.slash_not_mem hext.no_slash
  have hdraft := isStep_draftName hname.isDocumentName hname.slash_not_mem hext.no_slash
  have hle : (encode (fileName extension name)).length ≤
      (encode (draftName extension name)).length := by
    rw [length_fileName, length_draftName]
    omega
  refine ⟨⟨hstep, zero_not_mem_fileName hname hext, ?_⟩, ?_⟩
  · have hlen := hfits.length_le
    rw [length_fileName]
    omega
  · exact Nat.lt_of_le_of_lt (Path.length_join_mono hstep hdraft hle) hfits.path_lt

end Room

section Shown

theorem shown_congr {n : String}
    (h : d'.bytesAt (encode (fileName s.extension n) :: q) =
      d.bytesAt (encode (fileName s.extension n) :: q)) : s.shown d' q n = s.shown d q n := by
  simp only [shown, document?, h]

theorem shown_of_bytesAt_none (hb : d.bytesAt (encode (fileName s.extension name) :: q) = none) :
    s.shown d q name = .error (.notFound name) := by
  simp only [shown, document?, hb]

theorem file_of_shown (hnames : ∀ f x, d.get? (f :: q) = some x → IsName f)
    (hshown : s.shown d q name = .ok t) :
    HasRoom s.dir (encode (fileName s.extension name)) ∧
      ∃ b, d.bytesAt (encode (fileName s.extension name) :: q) = some b := by
  obtain ⟨html, hdoc, -⟩ := shown_eq_ok_iff.mp hshown
  obtain ⟨hname, b, m, stamp, hget⟩ := file_of_document? hdoc
  have hb := bytesAt_eq_some_iff.mpr ⟨m, stamp, hget⟩
  refine ⟨⟨hnames _ _ hget, Nat.not_le.mp fun hlong => ?_⟩, b, hb⟩
  rw [document?_eq_tooLong hb hname hlong] at hdoc
  simp at hdoc

end Shown

section Changing

theorem exec_writeDocument (hext : IsExtension s.extension) (h : FilesAt s.dir d q)
    (hvalid : ValidName t.name) (hfits : Fits s.dir s.extension t.name) :
    ∃ d', (writeDocument t).exec s d = (.ok (), s, d') ∧ FilesAt s.dir d' q ∧
      ∀ n, s.shown d' q n = if n = t.name then .ok t else s.shown d q n := by
  have hdraft := hasRoom_draftName hext hvalid hfits
  have hfile := hasRoom_fileName hext hvalid hfits
  have hne : ∀ n, encode (fileName s.extension n) ≠ encode (draftName s.extension t.name) :=
    fun n heq => encode_draftName_ne hext.plain hext.ne_tmp heq.symm
  obtain ⟨d₁, hwrite, h₁, hbytes₁⟩ := h.write hdraft (encode t.html)
  obtain ⟨d₂, hrename, h₂, hbytes₂⟩ :=
    h₁.rename hdraft hfile (hne t.name).symm ((hbytes₁ _).trans (if_pos rfl))
  refine ⟨d₂, ?_, h₂, fun n => ?_⟩
  · have hwrite' : d.write (s.draftPathFor t.name) (encode t.html) = .ok d₁ := hwrite
    have hrename' : d₁.rename (s.draftPathFor t.name) (s.pathFor t.name) = .ok d₂ := hrename
    rw [writeDocument]
    simp only [StoreM.exec_bind, StoreM.exec_ofExcept, checkName_eq_ok_iff.mpr hvalid,
      StoreM.followUp_ok, StoreM.exec_get, StoreM.exec_write, hwrite', settle,
      StoreM.mapError_ok, StoreM.exec_rename, hrename']
  · by_cases hn : n = t.name
    · subst hn
      rw [if_pos rfl]
      exact (shown_eq_ok_iff_of_bytesAt hvalid.isDocumentName ((hbytes₂ _).trans (if_pos rfl))).mpr
        ⟨rfl, rfl, hfile.length_lt⟩
    · have hnf : encode (fileName s.extension n) ≠ encode (fileName s.extension t.name) :=
        fun heq => hn (encode_fileName_injective heq)
      rw [if_neg hn]
      refine shown_congr ?_
      rw [hbytes₂, if_neg hnf, if_neg (hne n), hbytes₁, if_neg (hne n)]

/-- Without room for the draft nothing is written. -/
theorem exec_writeDocument_tooLong (hext : IsExtension s.extension) (h : FilesAt s.dir d q)
    (hvalid : ValidName t.name) (hlong : pathLimit ≤ (s.draftPathFor t.name).bytes.length) :
    (writeDocument t).exec s d =
      (.error (.storage (s.draftPathFor t.name) .nameTooLong), s, d) := by
  have hstep := isStep_draftName hvalid.isDocumentName hvalid.slash_not_mem hext.no_slash
  have hnil := Disk.bytes_ne_nil h.leads
  have hzero : 0 ∉ (s.draftPathFor t.name).bytes := by
    rw [draftPathFor, Path.child, Path.ofString, Path.mem_join_iff hstep hnil (by decide)]
    exact not_or.mpr ⟨(resolve_eq_ok_iff.mp h.leads).1, zero_not_mem_draftName hvalid hext⟩
  have htrim : (s.draftPathFor t.name).trimSlashes = s.draftPathFor t.name :=
    Path.trimSlashes_join hstep hnil
  have hwrite : d.write (s.draftPathFor t.name) (encode t.html) = .error .nameTooLong := by
    rw [Disk.write, htrim, resolve_eq_nameTooLong hzero hlong]
    rfl
  rw [writeDocument]
  simp only [StoreM.exec_bind, StoreM.exec_ofExcept, checkName_eq_ok_iff.mpr hvalid,
    StoreM.followUp_ok, StoreM.exec_get, StoreM.exec_write, hwrite, settle,
    StoreM.mapError_error, StoreM.followUp_error]

theorem exec_removeDocument (h : FilesAt s.dir d q) (hshown : s.shown d q name = .ok t) :
    ∃ d', (removeDocument name).exec s d = (.ok (), s, d') ∧ FilesAt s.dir d' q ∧
      ∀ n, s.shown d' q n = if n = name then .error (.notFound n) else s.shown d q n := by
  obtain ⟨hroom, b, hb⟩ := file_of_shown h.names hshown
  obtain ⟨d', hremove, h', hbytes⟩ := h.remove hroom hb
  refine ⟨d', ?_, h', fun n => ?_⟩
  · have hremove' : d.remove (s.pathFor name) = .ok d' := hremove
    rw [removeDocument]
    simp only [StoreM.exec_bind, StoreM.exec_get, StoreM.followUp_ok, StoreM.exec_remove, hremove',
      settle, StoreM.mapError_ok]
  · by_cases hn : n = name
    · subst hn
      rw [if_pos rfl]
      exact shown_of_bytesAt_none ((hbytes _).trans (if_pos rfl))
    · have hnf : encode (fileName s.extension n) ≠ encode (fileName s.extension name) :=
        fun heq => hn (encode_fileName_injective heq)
      rw [if_neg hn]
      exact shown_congr ((hbytes _).trans (if_neg hnf))

end Changing

/-- The store is alone with a folder at `q` that shows the content, and if its index was read, it
shows that as well. -/
structure Holds (dir : Path) (extension : String) (q : Place) (c : Content) (s : DirectoryStore)
    (d : Disk) : Prop where
  dir_eq : s.dir = dir
  extension_eq : s.extension = extension
  files : FilesAt dir d q
  shows : ∀ n, s.shown d q n = c.find n
  index : s.index.signal = none ∨ s.index.Shows s d q

namespace Holds

theorem folderAt (h : Holds dir extension q c s d) (hext : IsExtension extension) :
    s.FolderAt d q where
  plain := h.extension_eq ▸ hext.plain
  leads := h.dir_eq ▸ h.files.leads
  folder := h.files.folder
  names := h.files.names

theorem current (h : Holds dir extension q c s d) : s.Current d q := by
  intro hsignal
  rcases h.index with hnone | hshows
  · simp [hnone] at hsignal
  · exact hshows

theorem refreshed (h : Holds dir extension q c s d) (hext : IsExtension extension) :
    Holds dir extension q c (s.refreshed d q) d := by
  have hshows := shows_refreshed (h.folderAt hext) h.current
  rcases refreshed_eq s d q with heq | heq
  · rwa [heq]
  · rw [heq]
    exact ⟨h.dir_eq, h.extension_eq, h.files, h.shows, .inr (shows_reread (h.folderAt hext))⟩

theorem found (h : Holds dir extension q c s d) (hext : IsExtension extension)
    (hold : c.find name = .ok t) :
    ∃ s', refresh.exec s d = (.ok (), s', d) ∧ (find name).exec s' d = (.ok t, s', d) ∧
      Holds dir extension q c s' d := by
  have hat := h.folderAt hext
  have hfound := find_of_shows (shows_refreshed hat h.current) name
  rw [h.shows, hold] at hfound
  exact ⟨s.refreshed d q, exec_refresh hat, by rw [exec_find, hfound], h.refreshed hext⟩

theorem leaves_reload (hext : IsExtension extension) (hdir : s.dir = dir)
    (hextension : s.extension = extension) (hfiles : FilesAt dir d q)
    (hshows : ∀ n, s.shown d q n = c.find n) (t : Template) :
    Leaves (Holds dir extension q) (StoreM.exec (do reload; return t) s d) (.ok t) c := by
  have hat : s.FolderAt d q :=
    ⟨hextension ▸ hext.plain, hdir ▸ hfiles.leads, hfiles.folder, hfiles.names⟩
  simp only [StoreM.exec_bind, exec_reload hat, StoreM.followUp_ok, StoreM.exec_pure]
  exact ⟨rfl, hdir, hextension, hfiles, hshows, .inr (shows_reread hat)⟩

theorem templates_eq (h : Holds dir extension q c s d) {ix : Index} (hix : ix.Shows s d q) :
    ix.templates = c.templates := by
  ext n t
  rw [hix.templates, h.shows, Content.find_eq_ok_iff]

end Holds

theorem represents (hext : IsExtension extension) :
    Represents (Fits dir extension) (Holds dir extension q) where
  list {c s d} h := by
    have hat := h.folderAt hext
    rw [exec_list hat, h.templates_eq (shows_refreshed hat h.current)]
    exact ⟨rfl, h.refreshed hext⟩
  get {c s d} h n := by
    rw [exec_get (h.folderAt hext) h.current, h.shows]
    exact ⟨rfl, h.refreshed hext⟩
  create {c s d t} h hvalid hfits hfree := by
    obtain rfl := h.dir_eq
    obtain rfl := h.extension_eq
    obtain ⟨d', hwrite, hfiles, hshows⟩ := exec_writeDocument hext h.files hvalid hfits
    simp only [TemplateStore.create, StoreM.exec_bind]
    simp only [hwrite, StoreM.followUp_ok]
    refine Holds.leaves_reload hext rfl rfl hfiles (fun n => ?_) t
    rw [hshows, h.shows, Content.find_put]
  update {c s d n t u} h hvalid hfits hold hfree := by
    obtain ⟨s', hrefresh, hfind, h⟩ := h.found hext hold
    obtain rfl := h.dir_eq
    obtain rfl := h.extension_eq
    obtain ⟨d', hwrite, hfiles, hshows⟩ := exec_writeDocument hext h.files hvalid hfits
    simp only [TemplateStore.update, StoreM.exec_bind, hrefresh, StoreM.followUp_ok, hfind, hwrite]
    by_cases hname : t.name = n
    · rw [if_neg (not_not_intro hname)]
      refine Holds.leaves_reload hext rfl rfl hfiles (fun m => ?_) t
      rw [hshows, h.shows, Content.find_put, Content.find_erase, hname]
      split <;> rfl
    · have hshown : s'.shown d' q n = .ok u := by
        rw [hshows, if_neg (Ne.symm hname), h.shows, hold]
      obtain ⟨d'', hremove, hfiles', hshows'⟩ := exec_removeDocument hfiles hshown
      rw [if_pos hname, StoreM.exec_bind, hremove, StoreM.followUp_ok]
      refine Holds.leaves_reload hext rfl rfl hfiles' (fun m => ?_) t
      rw [hshows', hshows, h.shows, Content.find_put, Content.find_erase]
      by_cases hm : m = n
      · rw [if_pos hm, if_neg (fun heq => hname (heq.symm.trans hm)), if_pos hm]
      · rw [if_neg hm, if_neg hm]
  delete {c s d n u} h hold := by
    obtain ⟨s', hrefresh, hfind, h⟩ := h.found hext hold
    obtain rfl := h.dir_eq
    obtain rfl := h.extension_eq
    obtain ⟨d', hremove, hfiles, hshows⟩ := exec_removeDocument h.files ((h.shows n).trans hold)
    simp only [TemplateStore.delete, StoreM.exec_bind, hrefresh, StoreM.followUp_ok, hfind]
    simp only [hremove, StoreM.followUp_ok]
    refine Holds.leaves_reload hext rfl rfl hfiles (fun m => ?_) u
    rw [hshows, h.shows, Content.find_erase]

end DirectoryStore

end MailMerge
