import MailMerge.Proofs.Store.Refinement
import MailMerge.Proofs.Store.Stages

/-! # What is stored can be read back

A store files a template under its name and its extension, and takes a file for a document if what
stands behind the last dot of its name is the extension. The two agree unless the extension has a
dot or a slash in it: then no file is ever taken for a document, and what has been stored is not
there.
-/

namespace MailMerge

open Disk Utf8 StoreM

namespace DirectoryStore

variable {s s' : DirectoryStore} {d d' d₁ : Disk} {q r : Place} {t u : Template} {name : String}
  {files : List (Bytes × Info)}

/-- What a store tells of a name, by look-up and in its list. -/
structure Tells (s : DirectoryStore) (d : Disk) (name : String)
    (r : Except TemplateError Template) : Prop where
  get : ((TemplateStore.get name).exec s d).1 = r
  contains : ((TemplateStore.contains name).exec s d).1 = TemplateStore.presence r
  list : ∃ ts, ((TemplateStore.list (σ := DirectoryStore)).exec s d).1 = .ok ts ∧
    ∀ u : Template, u.name = name → (u ∈ ts ↔ r = .ok u)

section Reading

theorem leads_of_list (h : d.list s.dir = .ok files) :
    ∃ q, d.resolve true s.dir = .ok q ∧ d.HasFolder q := by
  obtain ⟨q, hq, h⟩ := exists_of_bind_eq_ok h
  refine ⟨q, hq, ?_⟩
  split at h
  · exact absurd h (throw_ne_ok _ _)
  · rename_i t ht
    exact ⟨t, ht⟩
  · exact absurd h (throw_ne_ok _ _)

variable (hleads : d.resolve true s.dir = .ok q) (hfolder : d.HasFolder q)

include hleads hfolder

theorem tells_of_refreshed
    (hlist : ∀ u : Template, u.name = name →
      (u ∈ (s.refreshed d q).index.templates.values ↔
        (s.refreshed d q).index.find name = .ok u)) :
    s.Tells d name ((s.refreshed d q).index.find name) := by
  have hget := exec_get_of_leads hleads hfolder name
  constructor
  · rw [hget]
  · rw [TemplateStore.exec_contains, hget]
  · exact ⟨_, by rw [exec_list_of_leads hleads hfolder], hlist⟩

omit hleads hfolder in
theorem indexAt_of_docsAt_nil (hdocs : s.docsAt d q = []) :
    (s.indexAt d q).templates = Shelf.empty ∧ (s.indexAt d q).unreadable = Shelf.empty := by
  rw [indexAt, hdocs]
  exact ⟨rfl, rfl⟩

theorem tells_of_docsAt_nil (hdocs : s.docsAt d q = []) (hempty : s.index.templates = Shelf.empty)
    (hempty' : s.index.unreadable = Shelf.empty) : s.Tells d name (.error (.notFound name)) := by
  obtain ⟨hix, hix'⟩ : (s.refreshed d q).index.templates = Shelf.empty ∧
      (s.refreshed d q).index.unreadable = Shelf.empty := by
    rcases refreshed_eq s d q with heq | heq
    · rw [heq]
      exact ⟨hempty, hempty'⟩
    · rw [heq]
      exact indexAt_of_docsAt_nil hdocs
  have hfind : (s.refreshed d q).index.find name = .error (.notFound name) := by
    simp [Index.find, hix, hix']
  rw [← hfind]
  exact tells_of_refreshed hleads hfolder fun u _ => by simp [hfind, hix, Shelf.values, Shelf.empty]

omit hleads hfolder in
theorem tells_of_folderAt (h : s.FolderAt d q) (hc : s.Current d q) :
    s.Tells d name (s.shown d q name) := by
  have hshows := shows_refreshed h hc
  rw [← find_of_shows hshows]
  refine tells_of_refreshed h.leads h.folder fun u hu => ?_
  subst hu
  rw [(values_of_shows hshows).2, find_of_shows hshows]

end Reading

/-- No file in a folder is taken for a document if the extension has a dot or a slash in it. -/
theorem docsAt_eq_nil (hd : d.Named) (hext : '.' ∈ s.extension.toList ∨ '/' ∈ s.extension.toList) :
    s.docsAt d q = [] := by
  refine List.eq_nil_iff_forall_not_mem.mpr fun doc hdoc => ?_
  obtain ⟨hdot, x, hx⟩ := get?_of_mem_docsAt hdoc
  have hslash := (hd.names hx _ List.mem_cons_self).no_slash
  rw [encode_fileName, List.mem_append, List.mem_cons,
    mem_encode_iff (c := '/') rfl (by decide) s.extension] at hslash
  exact hext.elim hdot fun hmem => hslash (.inr (.inr hmem))

section Creating

theorem exec_writeDocument_ok {a : Unit} (h : (writeDocument t).exec s d = (.ok a, s', d')) :
    s' = s ∧ ValidName t.name ∧ ∃ d₁, d.write (s.draftPathFor t.name) (encode t.html) = .ok d₁ ∧
      d₁.rename (s.draftPathFor t.name) (s.pathFor t.name) = .ok d' := by
  obtain ⟨rfl, hstores⟩ := stores_of_exec h
  cases hstores with
  | published hvalid hwrite hrename => exact ⟨rfl, hvalid, _, hwrite, hrename⟩

theorem exec_create_ok (h : (TemplateStore.create t).exec s d = (.ok u, s', d')) :
    u = t ∧ (writeDocument t).exec s d = (.ok (), s, d') ∧
      ∃ q, d'.resolve true s.dir = .ok q ∧ d'.HasFolder q ∧ s' = s.reread d' q := by
  have h : (StoreM.exec (do writeDocument t; reload; return t) s d) = (.ok u, s', d') := h
  obtain ⟨_, s₁, d₁, hstore, hrest⟩ := exists_of_exec_bind h
  obtain ⟨rfl, -⟩ := exec_writeDocument_ok hstore
  rw [exec_bind] at hrest
  cases hlist : d₁.list s₁.dir with
  | error fault => simp [exec_reload_error hlist] at hrest
  | ok files =>
    obtain ⟨q, hleads, hfolder⟩ := leads_of_list hlist
    rw [exec_reload_of_leads hleads hfolder] at hrest
    simp only [followUp_ok, exec_pure, Prod.mk.injEq, Except.ok.injEq] at hrest
    obtain ⟨rfl, rfl, rfl⟩ := hrest
    exact ⟨rfl, hstore, q, hleads, hfolder, rfl⟩

theorem leads_of_moved {a c : Place} {b : Bytes} {mode : Nat} {stamp : Moment} {path : Path}
    (h : (d.moved a c (.file b mode stamp)).resolve true path = .ok q)
    (hq : (d.moved a c (.file b mode stamp)).HasFolder q) : d.resolve true path = .ok q := by
  have hget : ∀ p y, ((d.tick.drop a).put c (.file b mode stamp)).get? p = some y →
      y.isFile = false → d.get? p = some y := by
    intro p y hy hfile
    rw [get?_put] at hy
    split at hy
    · obtain rfl := Option.some.inj hy
      simp [Entry.isFile] at hfile
    · exact get?_of_get?_drop hy
  refine resolve_of_missing_none (fun p target hp => ?_) here_moved.symm (fun p hp => ?_) h hq
  · have hlinks : SameLinks ((d.tick.drop a).put c (.file b mode stamp))
        (d.moved a c (.file b mode stamp)) := ((SameLinks.refl _).stampAt _ _).stampAt _ _
    exact hget p _ ((hlinks p target).mp hp) rfl
  · obtain ⟨t, ht⟩ := hasFolder_of_stampAt (hasFolder_of_stampAt hp)
    exact ⟨t, hget p _ ht rfl⟩

/-- What was stored lies in the folder that the store reads afterwards. -/
theorem bytesAt_of_stored (hslash : '/' ∉ s.extension.toList) (hvalid : ValidName t.name)
    (hdraft : ∀ q, d.resolve true s.dir = .ok q →
      d.NoLink (encode (draftName s.extension t.name) :: q))
    (hwrite : d.write (s.draftPathFor t.name) (encode t.html) = .ok d₁)
    (hrename : d₁.rename (s.draftPathFor t.name) (s.pathFor t.name) = .ok d')
    (hleads : d'.resolve true s.dir = .ok q) (hfolder : d'.HasFolder q) :
    d'.bytesAt (encode (fileName s.extension t.name) :: q) = some (encode t.html) ∧
      (s.pathFor t.name).bytes.length < pathLimit := by
  have hnil := Disk.bytes_ne_nil hleads
  have hstep := isStep_draftName hvalid.isDocumentName hvalid.slash_not_mem hslash
  have hstep' := isStep_fileName hvalid.isDocumentName hvalid.slash_not_mem hslash
  have htrim : (s.draftPathFor t.name).trimSlashes = s.draftPathFor t.name :=
    Path.trimSlashes_join hstep hnil
  have htrim' : (s.pathFor t.name).trimSlashes = s.pathFor t.name :=
    Path.trimSlashes_join hstep' hnil
  obtain ⟨r, hr, hwritten⟩ := write_eq_ok hwrite
  rw [htrim] at hr
  obtain ⟨q₀, hq₀, hleads₀, rfl | ⟨-, hlink⟩⟩ := resolve_of_join hstep hnil hr
  · have hevolves := evolves_write q₀ hwrite
    have hfolders : ∀ p, d.HasFolder p → d₁.HasFolder p := by
      have hroot : ([] : Place) ≠ encode (draftName s.extension t.name) :: q₀ := by simp
      refine (untouched_write (p := []) hwrite fun r' hr' => ?_).folders
      rw [htrim, hr] at hr'
      exact Except.ok.inj hr' ▸ hroot
    have hleads₁ := resolve_mono hevolves.links hevolves.here hfolders hleads₀ hq₀
    have hx₁ : ∃ mode stamp, d₁.get? (encode (draftName s.extension t.name) :: q₀) =
        some (.file (encode t.html) mode stamp) := by
      rcases hwritten with ⟨b, m, stamp, -, rfl⟩ | ⟨-, rfl⟩
      · exact ⟨m, d.tick.now, by simp⟩
      · exact ⟨freshMode, d.tick.now, by simp [get?_stampAt]⟩
    obtain ⟨mode, stamp, hx₁⟩ := hx₁
    obtain ⟨a, c, x, ha, hc, hx, hmoved⟩ := rename_eq_ok hrename
    rw [htrim] at ha
    rw [htrim'] at hc
    obtain ⟨q₁, -, hq₁, rfl | ⟨hfalse, -⟩⟩ := resolve_of_join hstep hnil ha
    · obtain ⟨q₂, -, hq₂, rfl | ⟨hfalse, -⟩⟩ := resolve_of_join hstep' hnil hc
      · obtain rfl := Except.ok.inj (hleads₁.symm.trans hq₁)
        obtain rfl := Except.ok.inj (hleads₁.symm.trans hq₂)
        obtain rfl := Option.some.inj (hx.symm.trans hx₁)
        rcases hmoved with ⟨heq, -⟩ | ⟨-, -, rfl⟩
        · exact absurd (List.cons.inj heq).1 encode_draftName_ne_fileName
        · obtain rfl := Except.ok.inj ((leads_of_moved hleads hfolder).symm.trans hleads₁)
          refine ⟨?_, (resolve_eq_ok_iff.mp hc).2.2.1⟩
          simp [moved, Entry.isFolder, bytesAt_put_file]
      · simp at hfalse
    · simp at hfalse
  · exact absurd (hdraft q₀ hleads₀) hlink

/-- After a template was stored, the store and one that is opened anew both tell of it, unless the
extension has a dot or a slash in it: then neither does. -/
theorem create_tells (hd : d.Named) (hdraft : ∀ q, d.resolve true s.dir = .ok q →
      d.NoLink (encode (draftName s.extension t.name) :: q))
    (hcreate : (TemplateStore.create t).exec s d = (.ok u, s', d')) :
    ∃ s'', (openAt s.dir s.extension).run d' = (.ok s'', d') ∧
      s'.Tells d' t.name (if '.' ∈ s.extension.toList ∨ '/' ∈ s.extension.toList then
        .error (.notFound t.name) else .ok t) ∧
      s''.Tells d' t.name (if '.' ∈ s.extension.toList ∨ '/' ∈ s.extension.toList then
        .error (.notFound t.name) else .ok t) := by
  obtain ⟨-, hstore, q, hleads, hfolder, rfl⟩ := exec_create_ok hcreate
  obtain ⟨-, hvalid, d₁, hwrite, hrename⟩ := exec_writeDocument_ok hstore
  have hnamed : d'.Named := named_rename (named_write hd hwrite) hrename
  refine ⟨_, run_openAt_of_folder s.extension hleads hfolder, ?_⟩
  split
  · have hdocs : s.docsAt d' q = [] := docsAt_eq_nil hnamed ‹_›
    obtain ⟨hempty, hempty'⟩ := indexAt_of_docsAt_nil (s := s) hdocs
    exact ⟨tells_of_docsAt_nil hleads hfolder hdocs hempty hempty',
      tells_of_docsAt_nil hleads hfolder hdocs rfl rfl⟩
  · rename_i hext
    obtain ⟨hdot, hslash⟩ := not_or.mp hext
    obtain ⟨hbytes, hlen⟩ :=
      bytesAt_of_stored hslash hvalid hdraft hwrite hrename hleads hfolder
    have hshown : s.shown d' q t.name = .ok t :=
      (shown_eq_ok_iff_of_bytesAt hvalid.isDocumentName hbytes).mpr ⟨rfl, rfl, hlen⟩
    have hat : s.FolderAt d' q :=
      ⟨hdot, hleads, hfolder, fun f x hx => hnamed.names hx f List.mem_cons_self⟩
    have hreread : (s.reread d' q).Tells d' t.name (s.shown d' q t.name) :=
      tells_of_folderAt hat.of_reread fun _ => shows_reread hat
    have hfresh : (⟨s.dir, s.extension, {}⟩ : DirectoryStore).Tells d' t.name
        (s.shown d' q t.name) :=
      tells_of_folderAt ⟨hdot, hleads, hfolder, hat.names⟩ nofun
    exact hshown ▸ ⟨hreread, hfresh⟩

end Creating

theorem create_tells_sample : ∃ s' d',
    (TemplateStore.create ⟨"x", "y"⟩).exec (rootStore 1) Disk.empty = (.ok ⟨"x", "y"⟩, s', d') ∧
    ∃ s'', (openAt (rootStore 1).dir "html").run d' = (.ok s'', d') ∧
      s'.Tells d' "x" (.ok ⟨"x", "y"⟩) ∧ s''.Tells d' "x" (.ok ⟨"x", "y"⟩) := by
  have hdraft : ∀ q, Disk.empty.resolve true (rootStore 1).dir = .ok q →
      Disk.empty.NoLink (encode (draftName "html" "x") :: q) := by
    intro q _ target hx
    simpa using (eq_of_get?_empty hx).1
  have hplain : ¬ ('.' ∈ "html".toList ∨ '/' ∈ "html".toList) := by decide
  have htells := create_tells (t := ⟨"x", "y"⟩) sound_empty.named hdraft rfl
  rw [rootStore, if_neg hplain] at htells
  exact ⟨_, _, rfl, htells⟩

/-- A store with a leading dot in its extension does not find what it has just stored. -/
theorem created_and_not_found : ∃ s' d',
    (TemplateStore.create ⟨"a", "x"⟩).exec (⟨⟨[Path.slash]⟩, ".html", {}⟩ : DirectoryStore)
        Disk.empty = (.ok ⟨"a", "x"⟩, s', d') ∧
      ((TemplateStore.get (σ := DirectoryStore) "a").exec s' d').1 = .error (.notFound "a") :=
  ⟨_, _, rfl, rfl⟩

end DirectoryStore

end MailMerge
