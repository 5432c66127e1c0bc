import MailMerge.Proofs.Composition
import MailMerge.Proofs.Store.RoundTrip
import MailMerge.Proofs.Store.Sharing

/-! # Templates are addressed by the names they are listed under

A store takes the names of its templates from the files in its folder, and every template that it
lists is found under its name. The rules for names ask for more than a file does: a file may have a
blank name or one with a backslash. The name of such a template is refused by the catalog, and a
request with a blank one is a request for the protected template.
-/

namespace MailMerge

open Disk Utf8 StoreM

/-- A name that a file can give to a template: it leads to no other folder, and it ends no path. -/
structure IsFileStem (name : String) : Prop extends IsDocumentName name where
  no_slash : '/' ∉ name.toList
  no_zero : '\x00' ∉ name.toList

/-- The rules for names ask for two things more than a file does. -/
theorem IsFileStem.validName_iff {name : String} (h : IsFileStem name) :
    ValidName name ↔ isBlank name = false ∧ '\\' ∉ name.toList := by
  rw [MailMerge.validName_iff]
  constructor
  · rintro ⟨hblank, hsep, -⟩
    exact ⟨hblank, fun hmem => absurd (hsep '\\' hmem) (by decide)⟩
  · rintro ⟨hblank, hback⟩
    refine ⟨hblank, fun c hc => ?_, h.not_hidden⟩
    have hslash : c ≠ '/' := fun heq => h.no_slash (heq ▸ hc)
    have hback : c ≠ '\\' := fun heq => hback (heq ▸ hc)
    have hzero : c ≠ '\x00' := fun heq => h.no_zero (heq ▸ hc)
    simp [isSeparator, hslash, hback, hzero]

namespace DirectoryStore

variable {s s' : DirectoryStore} {d d' : Disk} {q : Place} {name : String} {t : Template}

section Filing

theorem isFileStem_of_isName {extension : String} (hname : IsDocumentName name)
    (h : IsName (encode (fileName extension name))) : IsFileStem name := by
  have hmem : ∀ b ∈ encode name, b ∈ encode (fileName extension name) := by
    intro b hb
    rw [encode_fileName]
    exact List.mem_append_left _ hb
  refine ⟨hname, fun hslash => ?_, fun hzero => ?_⟩
  · exact h.no_slash (hmem _ ((mem_encode_iff (c := '/') rfl (by decide) name).mpr hslash))
  · exact h.no_zero (hmem _ ((mem_encode_iff (c := '\x00') rfl (by decide) name).mpr hzero))

/-- Every template of the index is kept under its own name, which a file can give to it. -/
def Filed (s : DirectoryStore) : Prop :=
  ∀ n t, s.index.templates.get? n = some t → t.name = n ∧ IsFileStem n

theorem filed_reread (hd : d.Named) (s : DirectoryStore) (q : Place) : (s.reread d q).Filed := by
  intro n t ht
  refine ⟨named_readAll (s.docsAt d q) d n t ht, ?_⟩
  obtain ⟨doc, hdoc, rfl⟩ := exists_of_get?_readAll ht
  obtain ⟨hext, x, hx⟩ := get?_of_mem_docsAt hdoc
  obtain ⟨hname, -⟩ := (mem_docsAt_iff hext).mp hdoc
  exact isFileStem_of_isName hname (hd.names hx _ List.mem_cons_self)

theorem filed_refreshed (hs : s.Filed) (hd : d.Named) (q : Place) : (s.refreshed d q).Filed := by
  rcases refreshed_eq s d q with heq | heq
  · rwa [heq]
  · rw [heq]
    exact filed_reread hd s q

variable {α β : Type}

/-- Whatever a dealing answers, it leaves the index in order, and only names on the disk that a disk
allows. -/
def Files (m : StoreM DirectoryStore α) : Prop :=
  ∀ s d, s.Filed → d.Named → (m.exec s d).2.1.Filed ∧ (m.exec s d).2.2.Named

theorem Files.bind {m : StoreM DirectoryStore α} {f : α → StoreM DirectoryStore β} (hm : Files m)
    (hf : ∀ a, Files (f a)) : Files (m >>= f) := by
  intro s d hs hd
  rw [exec_bind]
  have h := hm s d hs hd
  rcases hout : m.exec s d with ⟨_ | a, s', d'⟩
  · rw [hout] at h
    exact h
  · rw [hout] at h
    exact hf a s' d' h.1 h.2

theorem files_pure (a : α) : Files (pure a) := fun _ _ hs hd => ⟨hs, hd⟩

theorem Files.map {m : StoreM DirectoryStore α} (hm : Files m) (f : α → β) :
    Files (m >>= fun a => pure (f a)) :=
  hm.bind fun _ => files_pure _

theorem files_get : Files get := fun _ _ hs hd => ⟨hs, hd⟩

theorem files_find (name : String) : Files (find name) := fun _ _ hs hd => ⟨hs, hd⟩

theorem files_reload : Files reload := by
  intro s d hs hd
  cases hlist : d.list s.dir with
  | error fault =>
    rw [exec_reload_error hlist]
    exact ⟨hs, hd⟩
  | ok files =>
    obtain ⟨q, hleads, hfolder⟩ := leads_of_list hlist
    rw [exec_reload_of_leads hleads hfolder]
    exact ⟨filed_reread hd s q, hd⟩

theorem files_refresh : Files refresh := by
  intro s d hs hd
  cases hlist : d.list s.dir with
  | error fault =>
    rw [exec_refresh_error hlist]
    exact ⟨hs, hd⟩
  | ok files =>
    obtain ⟨q, hleads, hfolder⟩ := leads_of_list hlist
    rw [exec_refresh_of_leads hleads hfolder]
    exact ⟨filed_refreshed hs hd q, hd⟩

theorem files_writeDocument (t : Template) : Files (writeDocument t) := by
  intro s d hs hd
  rcases hexec : (writeDocument t).exec s d with ⟨r, s', d'⟩
  obtain ⟨rfl, hstores⟩ := stores_of_exec hexec
  cases hstores with
  | refused | unwritten => exact ⟨hs, hd⟩
  | drafted _ hwrite => exact ⟨hs, named_write hd hwrite⟩
  | published _ hwrite hrename => exact ⟨hs, named_rename (named_write hd hwrite) hrename⟩

theorem files_removeDocument (name : String) : Files (removeDocument name) := by
  intro s d hs hd
  rcases hexec : (removeDocument name).exec s d with ⟨r, s', d'⟩
  obtain ⟨rfl, ⟨-, -, -, rfl⟩ | ⟨-, hremove⟩⟩ := removal_of_exec hexec
  · exact ⟨hs, hd⟩
  · obtain ⟨r, x, -, -, -, rfl⟩ := remove_eq_ok hremove
    have hdrop : (d.tick.drop r).Named := hd.tick.of_subset rfl get?_of_get?_drop
    exact ⟨hs, hdrop.stampAt _ _⟩

theorem files_list : Files TemplateStore.list := files_refresh.bind fun _ => files_get.map _

theorem files_getTemplate (name : String) : Files (TemplateStore.get name) :=
  files_refresh.bind fun _ => files_find name

theorem files_contains (name : String) : Files (TemplateStore.contains name) := by
  intro s d hs hd
  rw [TemplateStore.exec_contains]
  exact files_getTemplate name s d hs hd

theorem files_create (t : Template) : Files (TemplateStore.create t) :=
  (files_writeDocument t).bind fun _ => files_reload.map fun _ => t

theorem files_update (name : String) (t : Template) : Files (TemplateStore.update name t) := by
  refine files_refresh.bind fun _ => (files_find name).bind fun _ =>
    (files_writeDocument t).bind fun _ => ?_
  split
  · exact (files_removeDocument name).bind fun _ => files_reload.map fun _ => t
  · exact files_reload.map fun _ => t

theorem files_delete (name : String) : Files (TemplateStore.delete name) :=
  files_refresh.bind fun _ => (files_find name).bind fun t =>
    (files_removeDocument name).bind fun _ => files_reload.map fun _ => t

theorem files_deed (deed : Deed) : Files deed.dealing := by
  cases deed with
  | list => exact files_list.map _
  | get name => exact (files_getTemplate name).map _
  | contains name => exact (files_contains name).map _
  | create t => exact (files_create t).map _
  | update name t => exact (files_update name t).map _
  | delete name => exact (files_delete name).map _
  | seedDefault =>
    refine Files.map ?_ _
    refine (files_contains defaultName).bind fun present => ?_
    split
    · exact files_pure _
    · exact (files_create Template.seed).map _

/-- A store that was opened and has been asked for anything since, each time on some disk. -/
inductive Used : DirectoryStore → Prop
  | opened {dir : Path} {extension : String} {d d' : Disk} {s : DirectoryStore}
    (h : (openAt dir extension).run d = (.ok s, d')) : Used s
  | asked {s : DirectoryStore} {d : Disk} (h : Used s) (hd : d.Named) (deed : Deed) :
    Used (deed.dealing.exec s d).2.1

theorem filed_of_used (h : s.Used) : s.Filed := by
  induction h with
  | opened h =>
    obtain rfl := eq_of_openAt h
    exact nofun
  | asked _ hd deed ih => exact (files_deed deed _ _ ih hd).1

end Filing

section Storing

variable {α β : Type} {m : StoreM DirectoryStore α} {f : α → StoreM DirectoryStore β} {a : α}
  {b : β}

/-- The dealing answers with `a`, or the disk has failed. -/
def Gives (m : StoreM DirectoryStore α) (a : α) (s : DirectoryStore) (d : Disk) : Prop :=
  (m.exec s d).1 = .ok a ∨ ∃ path fault, (m.exec s d).1 = .error (.storage path fault)

theorem gives_bind (hm : m.exec s d = (.ok a, s', d')) (hf : Gives (f a) b s' d') :
    Gives (m >>= f) b s d := by
  rwa [Gives, exec_bind, hm, followUp_ok]

theorem gives_bind_error {path : Path} {fault : Fault}
    (hm : m.exec s d = (.error (.storage path fault), s', d')) : Gives (m >>= f) b s d := by
  rw [Gives, exec_bind, hm, followUp_error]
  exact .inr ⟨path, fault, rfl⟩

theorem gives_reload (a : α) : Gives (do reload; pure a) a s d := by
  cases hlist : d.list s.dir with
  | error fault => exact gives_bind_error (exec_reload_error hlist)
  | ok files =>
    obtain ⟨q, hleads, hfolder⟩ := leads_of_list hlist
    exact gives_bind (exec_reload_of_leads hleads hfolder) (.inl rfl)

theorem gives_writeDocument {f : Unit → StoreM DirectoryStore β} (hvalid : ValidName t.name)
    (hf : ∀ d', Gives (f ()) b s d') : Gives (writeDocument t >>= f) b s d := by
  rcases hexec : (writeDocument t).exec s d with ⟨r, s', d'⟩
  obtain ⟨rfl, hstores⟩ := stores_of_exec hexec
  cases hstores with
  | refused hcheck => simp [checkName_eq_ok_iff.mpr hvalid] at hcheck
  | unwritten | drafted => exact gives_bind_error hexec
  | published => exact gives_bind hexec (hf d')

end Storing

theorem refreshed_refreshed (s : DirectoryStore) (d : Disk) (q : Place) :
    (s.refreshed d q).refreshed d q = s.refreshed d q := by
  have hsignal : (s.refreshed d q).index.signal = some ((s.refreshed d q).signalAt d q) := by
    unfold refreshed
    split
    · assumption
    · rfl
  exact if_pos hsignal

structure Listed (s : DirectoryStore) (d : Disk) (q : Place) (t : Template) : Prop where
  leads : d.resolve true s.dir = .ok q
  folder : d.HasFolder q
  again : s.refreshed d q = s
  stem : IsFileStem t.name
  found : s.index.find t.name = .ok t

theorem listed_of_exec {ts : List Template} (hs : s.Filed) (hd : d.Named)
    (h : (TemplateStore.list (σ := DirectoryStore)).exec s d = (.ok ts, s', d')) :
    d' = d ∧ ∃ q, ∀ t ∈ ts, s'.Listed d q t := by
  cases hlist : d.list s.dir with
  | error fault => simp [exec_list_error hlist] at h
  | ok files =>
    obtain ⟨q, hleads, hfolder⟩ := leads_of_list hlist
    rw [exec_list_of_leads hleads hfolder] at h
    simp only [Prod.mk.injEq, Except.ok.injEq] at h
    obtain ⟨rfl, rfl, rfl⟩ := h
    refine ⟨rfl, q, fun t ht => ?_⟩
    obtain ⟨⟨n, u⟩, hmem, rfl⟩ := List.mem_map.mp ht
    have hget := Shelf.mem_entries_iff.mp hmem
    obtain ⟨rfl, hstem⟩ := filed_refreshed hs hd q n u hget
    have hdir : (s.refreshed d q).dir = s.dir := by
      rcases refreshed_eq s d q with heq | heq
      · rw [heq]
      · rw [heq]
        rfl
    exact ⟨hdir ▸ hleads, hfolder, refreshed_refreshed s d q, hstem, by simp [Index.find, hget]⟩

namespace Listed

variable (h : s.Listed d q t)

include h

theorem exec_refresh : refresh.exec s d = (.ok (), s, d) := by
  rw [exec_refresh_of_leads h.leads h.folder, h.again]

theorem exec_get : (TemplateStore.get t.name).exec s d = (.ok t, s, d) := by
  rw [exec_get_of_leads h.leads h.folder, h.again, h.found]

theorem exec_contains : (TemplateStore.contains t.name).exec s d = (.ok true, s, d) := by
  rw [TemplateStore.exec_contains, h.exec_get]
  rfl

/-- A template under a valid name can be stored again. -/
theorem gives_update (hvalid : ValidName t.name) (html : String) :
    Gives (TemplateStore.update t.name ⟨t.name, html⟩) ⟨t.name, html⟩ s d := by
  refine gives_bind h.exec_refresh ?_
  refine gives_bind (a := t) (by rw [exec_find, h.found]) ?_
  refine gives_writeDocument hvalid fun d' => ?_
  rw [if_neg (not_not_intro rfl)]
  exact gives_reload _

theorem gives_catalog_update (hvalid : ValidName t.name) (hne : t.name ≠ defaultName)
    (lookup : UpdateLookup) (html : String) :
    Gives (Catalog.update lookup t.name ⟨t.name, html⟩) ⟨t.name, html⟩ s d := by
  have hprotect : Catalog.protect t.name .updated = .ok () := if_neg hne
  have htarget : Catalog.target lookup t.name ⟨t.name, html⟩ = t.name := by cases lookup <;> rfl
  unfold Catalog.update
  simp only [htarget]
  refine gives_bind (a := ()) (by rw [exec_ofExcept, hprotect]) ?_
  refine gives_bind (a := ()) (by rw [exec_ofExcept, checkName_eq_ok_iff.mpr hvalid]) ?_
  refine gives_bind (a := ()) (by rw [exec_ofExcept, hprotect]) ?_
  refine gives_bind h.exec_contains ?_
  simpa using h.gives_update hvalid html

end Listed

theorem exec_catalog_update_invalid (hvalid : ¬ ValidName name) (hne : name ≠ defaultName)
    (lookup : UpdateLookup) (html : String) :
    ∃ fault : NameFault, ((Catalog.update lookup name ⟨name, html⟩).exec s d).1 =
      .error (.invalidName name fault.reason) := by
  have hprotect : Catalog.protect name .updated = .ok () := if_neg hne
  cases hfault : NameFault.of? name with
  | none => exact absurd hfault hvalid
  | some fault =>
    have hcheck : checkName name = .error (.invalidName name fault.reason) := by
      rw [checkName, hfault]
    refine ⟨fault, ?_⟩
    simp only [Catalog.update, exec_bind, exec_ofExcept, hprotect, followUp_ok, hcheck,
      followUp_error]

/-- A template that is listed is found under its name. The name breaks no rule unless it is blank
or has a backslash in it. A request that names the template is rendered with it, unless the name is
blank: then the request is one that names no template. A change of the document under the same
name is carried out, or the disk fails, unless the name breaks a rule: then it is refused for its
name. -/
theorem addressed_of_listed {ts : List Template} (hs : s.Used) (hd : d.Named)
    (hlist : (TemplateStore.list (σ := DirectoryStore)).exec s d = (.ok ts, s', d'))
    (ht : t ∈ ts) :
    ((TemplateStore.get t.name).exec s' d').1 = .ok t ∧
      (ValidName t.name ↔ isBlank t.name = false ∧ '\\' ∉ t.name.toList) ∧
      (∀ required sender (request : EmailRequest),
        ((compose required sender { request with templateName := some t.name }).exec s' d').1 =
          if isBlank t.name then
            ((compose required sender { request with templateName := none }).exec s' d').1
          else outcome required sender request (.ok t)) ∧
      (t.name ≠ defaultName → ∀ lookup html,
        if ValidName t.name then
          Gives (Catalog.update lookup t.name ⟨t.name, html⟩) ⟨t.name, html⟩ s' d'
        else ∃ fault : NameFault,
          ((Catalog.update lookup t.name ⟨t.name, html⟩).exec s' d').1 =
            .error (.invalidName t.name fault.reason)) := by
  obtain ⟨rfl, q, hall⟩ := listed_of_exec (filed_of_used hs) hd hlist
  have hlisted := hall t ht
  have hget : ((TemplateStore.get t.name).exec s' d').1 = .ok t := by rw [hlisted.exec_get]
  refine ⟨hget, hlisted.stem.validName_iff, fun required sender request => ?_,
    fun hne lookup html => ?_⟩
  · rw [exec_compose, exec_compose]
    split
    · rename_i hblank
      simp only [resolveName, hblank, if_true]
      rfl
    · rename_i hblank
      simp only [resolveName, hblank, Bool.false_eq_true, if_false, hget]
      rfl
  · split
    · exact hlisted.gives_catalog_update ‹_› hne lookup html
    · exact exec_catalog_update_invalid ‹_› hne lookup html

def strayDisk : Disk where
  entries := [([], .folder 0), ([encode "a.html"], .file (encode "A") 0o644 0),
    ([encode "b\\c.html"], .file (encode "B") 0o644 0),
    ([encode " .html"], .file (encode "C") 0o644 0)]
  here := []
  now := 1
  distinct := by decide

theorem named_strayDisk : strayDisk.Named := by
  apply named_of_entries
  · decide
  · decide
  · simp [strayDisk]

theorem used_rootStore : (rootStore 1).Used :=
  .opened (d := strayDisk) (run_openAt_of_folder "html" (q := []) rfl ⟨0, rfl⟩)

/-- A template under a valid name can be looked up and changed. -/
theorem addressed_sample : ∃ s' d', (TemplateStore.list (σ := DirectoryStore)).exec (rootStore 1)
      strayDisk = (.ok [⟨" ", "C"⟩, ⟨"a", "A"⟩, ⟨"b\\c", "B"⟩], s', d') ∧
    ((TemplateStore.get "a").exec s' d').1 = .ok ⟨"a", "A"⟩ ∧
    ∀ lookup html, Gives (Catalog.update lookup "a" ⟨"a", html⟩) ⟨"a", html⟩ s' d' := by
  have hvalid : ValidName (Template.mk "a" "A").name := by decide
  have hne : (Template.mk "a" "A").name ≠ defaultName := by decide
  obtain ⟨hget, -, -, hupdate⟩ := addressed_of_listed (t := ⟨"a", "A"⟩) used_rootStore
    named_strayDisk rfl (List.mem_cons_of_mem _ List.mem_cons_self)
  refine ⟨_, _, rfl, hget, fun lookup html => ?_⟩
  have hgives := hupdate hne lookup html
  rwa [if_pos hvalid] at hgives

/-- Of the templates that are listed one has a backslash in its name, and its document cannot be
changed; and one has a blank name, and a request with this name looks for the protected template. -/
theorem listed_and_refused : ∃ s' d', (TemplateStore.list (σ := DirectoryStore)).exec (rootStore 1)
      strayDisk = (.ok [⟨" ", "C"⟩, ⟨"a", "A"⟩, ⟨"b\\c", "B"⟩], s', d') ∧
    ¬ ValidName "b\\c" ∧ ¬ ValidName " " ∧
    ((Catalog.update .incomingName "b\\c" ⟨"b\\c", "D"⟩).exec s' d').1 =
      .error (.invalidName "b\\c" "name must not contain path separators") ∧
    ((compose defaultRequired ⟨"N", "n@x.org"⟩ { recipient := some "a@b.org", title := some "T"
                                                 templateName := some " " }).exec s' d').1 =
      .error (.notFound defaultName) := by
  refine ⟨_, _, rfl, by decide, by decide, rfl, ?_⟩
  have hfault : AddressFault.of? "a@b.org" = none := by decide +kernel
  have hrecipient : requireValue recipientField (some "a@b.org") = .ok "a@b.org" := rfl
  have haddress : checkAddress (some "a@b.org") = .ok "a@b.org" := by
    simp only [checkAddress, hrecipient, bind, Except.bind, hfault]
  rw [exec_compose]
  unfold outcome
  rw [haddress]
  rfl

end DirectoryStore

end MailMerge
