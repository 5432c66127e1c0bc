import MailMerge.Proofs.Calls
import MailMerge.Proofs.Store.Sharing

/-! # Stores stay in their folder

A store that was opened on a folder without symbolic links is asked for anything, directly or
through the catalog, under any names. Whatever it answers and wherever it breaks off, it has touched
nothing but the documents of the names that it was asked with, and their drafts.
-/

namespace MailMerge

open Disk Utf8 StoreM

def Call.passed : Call → List String
  | list => []
  | names => []
  | get name => [name]
  | create t => [t.name]
  | update name t => [name, t.name]
  | delete name => [name]

namespace DirectoryStore

def Deed.passed : Deed → List String
  | list => []
  | get name => [name]
  | contains name => [name]
  | create t => [t.name]
  | update name t => [name, t.name]
  | delete name => [name]
  | seedDefault => [defaultName]

/-- Whatever a store can be asked for, directly or through the catalog. -/
inductive Operation
  | deed (asked : Deed)
  | call (lookup : UpdateLookup) (c : Call)

namespace Operation

def dealing : Operation → StoreM DirectoryStore Unit
  | deed asked => asked.dealing
  | call lookup c => do let _ ← c.answer lookup

def passed : Operation → List String
  | deed asked => asked.passed
  | call _ c => c.passed

end Operation

variable {dir : Path} {extension name : String} {q : Place} {s : DirectoryStore} {d d' : Disk}
  {t : Template} {names : List String}

/-- The file names of the documents of some templates, and of their drafts. -/
def OwnFile (extension : String) (names : List String) (f : Bytes) : Prop :=
  ∃ n ∈ names, f = encode (fileName extension n) ∨ f = encode (draftName extension n)

/-- A store that was opened on the folder at `q` and has been asked for anything since, on a disk on
which other programs may have done anything in between that leaves the folder in place. -/
inductive Arises (dir : Path) (extension : String) (q : Place) : DirectoryStore → Disk → Prop
  | opened {d₀ d : Disk} {s : DirectoryStore} (hopen : (openAt dir extension).run d₀ = (.ok s, d))
    (hfolder : PlainFolder dir d q) : Arises dir extension q s d
  | asked {s : DirectoryStore} {d : Disk} (h : Arises dir extension q s d) (op : Operation) :
    Arises dir extension q (op.dealing.exec s d).2.1 (op.dealing.exec s d).2.2
  | outside {s : DirectoryStore} {d d' : Disk} (h : Arises dir extension q s d)
    (hfolder : PlainFolder dir d' q) : Arises dir extension q s d'

theorem target_mem_passed (lookup : UpdateLookup) (name : String) (t : Template) :
    Catalog.target lookup name t ∈ (Call.update name t).passed := by
  cases lookup with
  | incomingName => exact List.mem_cons_of_mem _ List.mem_cons_self
  | routeName => exact List.mem_cons_self

section Step

theorem Drafted.ownFile (h : Drafted extension q t d d') (hname : t.name ∈ names) :
    ChangesOnly q (OwnFile extension names) d d' :=
  ChangesOnly.mono h fun _ hf => ⟨t.name, hname, .inr hf⟩

theorem Published.ownFile (h : Published dir extension q t d d') (hname : t.name ∈ names) :
    ChangesOnly q (OwnFile extension names) d d' :=
  h.changes.mono fun _ hf => ⟨t.name, hname, hf.symm⟩

theorem Removed.ownFile (h : Removed extension q name d d') (hname : name ∈ names) :
    ChangesOnly q (OwnFile extension names) d d' :=
  h.changes.mono fun _ hf => ⟨name, hname, .inl hf⟩

/-- A dealing that changes no files but those of some templates. -/
abbrev Encloses {α : Type} (dir : Path) (extension : String) (q : Place) (names : List String)
    (m : StoreM DirectoryStore α) (s : DirectoryStore) (d : Disk) : Prop :=
  Upholds (WorksIn dir extension q) (ChangesOnly q (OwnFile extension names) d) m s d

variable (hslash : '/' ∉ extension.toList) (h : WorksIn dir extension q s d)

include hslash h

theorem encloses_create (hname : t.name ∈ names) :
    Encloses dir extension q names (TemplateStore.create t) s d :=
  upholds_create invariant_worksIn h hslash (fun _ hd => Drafted.ownFile hd hname)
    fun _ hp => hp.ownFile hname

theorem encloses_update (hname : t.name ∈ names) (hold : name ∈ names) :
    Encloses dir extension q names (TemplateStore.update name t) s d :=
  upholds_update invariant_worksIn h hslash (fun _ hd => Drafted.ownFile hd hname)
    (fun _ hp => hp.ownFile hname)
    fun _ _ _ hp hr => (hp.ownFile hname).trans (hr.ownFile hold)

omit hslash in
theorem encloses_delete (hold : name ∈ names) :
    Encloses dir extension q names (TemplateStore.delete name) s d :=
  upholds_delete invariant_worksIn h (.refl q _ d) fun _ hr => hr.ownFile hold

theorem encloses_deed (deed : Deed) :
    Encloses dir extension q deed.passed deed.dealing s d := by
  have hlook : TemplateStore.KeepsOnLook DirectoryStore (WorksIn dir extension q) :=
    invariant_worksIn.keepsOnLook
  have hd : ∀ A, ChangesOnly q A d d := fun A => .refl q A d
  cases deed with
  | list => exact (Catalog.upholds_list hlook (hd _) h).map _
  | get name => exact (Catalog.upholds_get hlook (hd _) h name).map _
  | contains name =>
    exact TemplateStore.upholds_contains hlook (hd _) h fun _ s' _ h' =>
      upholds_of_looks (hd _) (looks_pure _) h'
  | create t => exact (encloses_create hslash h List.mem_cons_self).map _
  | update name t =>
    refine (encloses_update hslash h ?_ List.mem_cons_self).map _
    exact List.mem_cons_of_mem _ List.mem_cons_self
  | delete name => exact (encloses_delete h List.mem_cons_self).map _
  | seedDefault =>
    refine Upholds.map ?_ _
    refine TemplateStore.upholds_contains hlook (hd _) h fun present s' _ h' => ?_
    split
    · exact upholds_of_looks (hd _) (looks_pure _) h'
    · have hname : Template.seed.name ∈ Deed.seedDefault.passed := List.mem_cons_self
      exact (encloses_create hslash h' hname).map _

theorem encloses_call (lookup : UpdateLookup) (c : Call) :
    Encloses dir extension q c.passed (c.answer lookup) s d := by
  have hstage := stage_of_call invariant_worksIn hslash h lookup c
  refine ⟨fun d' hb => ?_, hstage.after⟩
  cases hstage.anywhere d' hb with
  | untouched => exact .refl q _ d
  | drafted _ h => exact h.ownFile List.mem_cons_self
  | created _ h => exact h.ownFile List.mem_cons_self
  | redrafted _ _ h => exact h.ownFile (List.mem_cons_of_mem _ List.mem_cons_self)
  | updated _ _ h => exact h.ownFile (List.mem_cons_of_mem _ List.mem_cons_self)
  | @renamed name t d₁ _ _ _ _ h h' =>
    exact (h.ownFile (List.mem_cons_of_mem _ List.mem_cons_self)).trans
      (h'.ownFile (target_mem_passed lookup name t))
  | deleted _ h => exact h.ownFile List.mem_cons_self

theorem encloses_operation (op : Operation) :
    Encloses dir extension q op.passed op.dealing s d := by
  cases op with
  | deed asked => exact encloses_deed hslash h asked
  | call lookup c => exact (encloses_call hslash h lookup c).map _

end Step

theorem worksIn_of_arises (hslash : '/' ∉ extension.toList) (h : Arises dir extension q s d) :
    WorksIn dir extension q s d := by
  induction h with
  | opened hopen hfolder =>
    obtain rfl := eq_of_openAt hopen
    exact worksIn_of_fresh hfolder
  | asked _ op ih => exact (encloses_operation hslash ih op).after
  | outside _ hfolder ih => exact ⟨ih.dir_eq, ih.extension_eq, hfolder, ih.keys⟩

/-- Whether an operation ends, in whatever way, or breaks off: outside the folder, in the folders
below it and under all names but those of its own files everything is as it was. -/
theorem enclosed_of_arises (hslash : '/' ∉ extension.toList) (h : Arises dir extension q s d)
    (op : Operation) (hd : d' = (op.dealing.exec s d).2.2 ∨ op.dealing.BreaksOff s d d') :
    PlainFolder dir d' q ∧ ∀ p, p ≠ q →
      (∀ n ∈ op.passed, p ≠ encode (fileName extension n) :: q ∧
        p ≠ encode (draftName extension n) :: q) → d'.get? p = d.get? p := by
  have hworks := worksIn_of_arises hslash h
  have hchanges : ChangesOnly q (OwnFile extension op.passed) d d' := by
    apply (encloses_operation hslash hworks op).anywhere
    rcases hd with rfl | hd
    · exact breaksOff_end _ s d
    · exact hd
  refine ⟨hworks.folder.of_changesOnly hchanges, fun p hp hnames => ?_⟩
  apply hchanges.others p hp
  rintro f ⟨n, hn, rfl | rfl⟩
  · exact (hnames n hn).1
  · exact (hnames n hn).2

theorem arises_sample : Arises (rootStore 1).dir "html" [] (rootStore 1) sampleDisk :=
  .opened (run_openAt_of_folder "html" plainFolder_sample.leads plainFolder_sample.folder)
    plainFolder_sample

/-- A document of the same name in a folder below is left alone. -/
theorem enclosed_sample :
    PlainFolder (rootStore 1).dir
        (((Operation.deed (.create ⟨"a", "B"⟩)).dealing).exec (rootStore 1) sampleDisk).2.2 [] ∧
      (((Operation.deed (.create ⟨"a", "B"⟩)).dealing).exec (rootStore 1) sampleDisk).2.2.get?
        [encode "a.html", encode "sub"] = some (.file (encode "S") 0o644 0) := by
  obtain ⟨hfolder, hothers⟩ := enclosed_of_arises (by decide) arises_sample
    (.deed (.create ⟨"a", "B"⟩)) (.inl rfl)
  exact ⟨hfolder, hothers _ (by simp) fun n _ => ⟨by simp, by simp⟩⟩

end DirectoryStore

end MailMerge
