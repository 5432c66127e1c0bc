import MailMerge.Proofs.Store.Confinement

/-! # Stores that share a folder

Any number of stores deal with one folder, one after another, while other programs change the disk
in between. Whatever has happened, every store answers with what the folder shows now.
-/

namespace MailMerge

open Disk DirectoryStore Utf8

namespace DirectoryStore

variable {s : DirectoryStore} {d : Disk} {q : Place}

/-- The look-ups of a store answer what the folder at `q` shows, or that it cannot be listed. -/
structure Answers (s : DirectoryStore) (d : Disk) (q : Place) : Prop where
  failing : ∀ fault, d.list s.dir = .error fault →
    ((TemplateStore.list (σ := DirectoryStore)).exec s d).1 = .error (.storage s.dir fault) ∧
      ∀ n,
        ((TemplateStore.get (σ := DirectoryStore) n).exec s d).1 = .error (.storage s.dir fault) ∧
          ((TemplateStore.contains (σ := DirectoryStore) n).exec s d).1 =
            .error (.storage s.dir fault)
  list : ∀ files, d.list s.dir = .ok files →
    ∃ ts, ((TemplateStore.list (σ := DirectoryStore)).exec s d).1 = .ok ts ∧
      (ts.Pairwise fun t u => t.name < u.name) ∧ ∀ t, t ∈ ts ↔ s.shown d q t.name = .ok t
  get : ∀ files, d.list s.dir = .ok files → ∀ n,
    ((TemplateStore.get (σ := DirectoryStore) n).exec s d).1 = s.shown d q n
  contains : ∀ files, d.list s.dir = .ok files → ∀ n,
    ((TemplateStore.contains (σ := DirectoryStore) n).exec s d).1 =
      TemplateStore.presence (s.shown d q n)

theorem answers_of_tends (h : s.Tends d q) : s.Answers d q where
  failing fault hlist := by
    refine ⟨by rw [exec_list_error hlist], fun n => ⟨by rw [exec_get_error hlist], ?_⟩⟩
    rw [TemplateStore.exec_contains, exec_get_error hlist]
    rfl
  list files hlist := by
    have hat := h.folderAt hlist
    have hshows := shows_refreshed hat (h.current hat)
    obtain ⟨hsorted, hmem⟩ := values_of_shows hshows
    exact ⟨_, by rw [exec_list hat], hsorted, hmem⟩
  get files hlist n := by
    have hat := h.folderAt hlist
    rw [exec_get hat (h.current hat)]
  contains files hlist n := by
    have hat := h.folderAt hlist
    rw [TemplateStore.exec_contains, exec_get hat (h.current hat)]

/-- The store and the disk after the store was opened anew; it is kept if that fails. -/
def reopened (s : DirectoryStore) (d : Disk) : DirectoryStore × Disk :=
  match (openAt s.dir s.extension).run d with
  | (.ok s', d') => (s', d')
  | (.error _, d') => (s, d')

theorem kept_reopened (h : s.Tends d q) : Kept q s d (s.reopened d).1 (s.reopened d).2 := by
  have hfresh : ∀ {d'}, Evolves q d d' → Kept q s d ⟨s.dir, s.extension, {}⟩ d' := fun he =>
    have h' := h.evolve he
    ⟨rfl, rfl, he, h'.plain, h'.no_slash, h'.leads, h'.no_link, h'.sound, .inl rfl⟩
  have hmade := evolves_makeChain q s.dir.ancestors d
  unfold reopened
  rcases run_openAt s.dir s.extension d with hrun | hrun | ⟨fault, hrun⟩
  · rw [hrun]
    exact hfresh (.refl q d)
  · rw [hrun]
    exact hfresh hmade
  · rw [hrun]
    exact .of_evolves h hmade

/-- Everything that a store can be asked to do. -/
inductive Deed
  | list
  | get (name : String)
  | contains (name : String)
  | create (t : Template)
  | update (name : String) (t : Template)
  | delete (name : String)
  | seedDefault

def Deed.dealing : Deed → StoreM DirectoryStore Unit
  | list => do let _ ← TemplateStore.list
  | get name => do let _ ← TemplateStore.get name
  | contains name => do let _ ← TemplateStore.contains name
  | create t => do let _ ← TemplateStore.create t
  | update name t => do let _ ← TemplateStore.update name t
  | delete name => do let _ ← TemplateStore.delete name
  | seedDefault => do let _ ← TemplateStore.seedDefault

theorem keptBy_deed (h : s.Tends d q) (deed : Deed) : KeptBy q deed.dealing s d := by
  cases deed with
  | list => exact (keptBy_list h).map _
  | get name => exact (keptBy_getTemplate h name).map _
  | contains name => exact (keptBy_contains h name).map _
  | create t => exact (confined_create h t).kept.map _
  | update name t => exact (confined_update h name t).kept.map _
  | delete name => exact (confined_delete h name).kept.map _
  | seedDefault => exact (confined_seedDefault h).kept.map _

end DirectoryStore

/-- A disk and the stores that are open on it. -/
structure World (ι : Type) where
  disk : Disk
  stores : ι → DirectoryStore

namespace World

section

variable {ι : Type} {q : Place} {w w' : World ι}

/-- Every store has just been opened on the folder at `q`, in which no symbolic link lies. -/
structure Opened (q : Place) (w : World ι) : Prop where
  sound : w.disk.Sound
  no_link : ∀ n, w.disk.NoLink (n :: q)
  leads : ∀ i, w.disk.resolve true (w.stores i).dir = .ok q
  plain : ∀ i, '.' ∉ (w.stores i).extension.toList
  no_slash : ∀ i, '/' ∉ (w.stores i).extension.toList
  fresh : ∀ i, (w.stores i).index.signal = none

/-- Every store tends the folder at `q`, under the path and with the extension it was opened
with. -/
structure Tended (q : Place) (w w' : World ι) : Prop where
  dir : ∀ i, (w'.stores i).dir = (w.stores i).dir
  extension : ∀ i, (w'.stores i).extension = (w.stores i).extension
  tends : ∀ i, (w'.stores i).Tends w'.disk q

theorem tended_of_opened (h : Opened q w) : Tended q w w where
  dir _ := rfl
  extension _ := rfl
  tends i :=
    ⟨h.plain i, h.no_slash i, ⟨w.disk, .refl _, rfl, h.leads i⟩, h.no_link, h.sound,
      .inl (h.fresh i)⟩

theorem tended_evolves (h : Tended q w w') {d : Disk} (he : Evolves q w'.disk d) :
    Tended q w { w' with disk := d } :=
  ⟨h.dir, h.extension, fun i => (h.tends i).evolve he⟩

end

variable {ι : Type} [DecidableEq ι] {q : Place} {w w' w'' : World ι} {i : ι}

def put (w : World ι) (i : ι) (after : DirectoryStore × Disk) : World ι where
  disk := after.2
  stores j := if j = i then after.1 else w.stores j

/-- One thing that happens in a world with a folder at `q`. -/
inductive Step (q : Place) : World ι → World ι → Prop
  | deal (w : World ι) (i : ι) (deed : DirectoryStore.Deed) :
    Step q w (w.put i (deed.dealing.exec (w.stores i) w.disk).2)
  | reopen (w : World ι) (i : ι) : Step q w (w.put i ((w.stores i).reopened w.disk))
  | change (w : World ι) (c : Change) (hc : c.Spares q w.disk) :
    Step q w { w with disk := w.disk.change c }
  /-- Time passes. The disk may list its entries in another order. -/
  | pass (w : World ι) (d : Disk) (hh : d.here = w.disk.here) (hn : w.disk.now ≤ d.now)
    (hg : ∀ p, d.get? p = w.disk.get? p) : Step q w { w with disk := d }

/-- What may come about in any number of steps. -/
inductive Reaches (q : Place) (w : World ι) : World ι → Prop
  | start : Reaches q w w
  | step {w' w'' : World ι} (h : Reaches q w w') (hs : Step q w' w'') : Reaches q w w''

/-- A store that keeps itself and the disk in order keeps the other stores in order. -/
theorem tended_put (h : Tended q w w') {after : DirectoryStore × Disk}
    (hk : DirectoryStore.Kept q (w'.stores i) w'.disk after.1 after.2) :
    Tended q w (w'.put i after) where
  dir j := by
    by_cases hj : j = i
    · subst hj
      simp [put, hk.dir, h.dir]
    · simp [put, hj, h.dir]
  extension j := by
    by_cases hj : j = i
    · subst hj
      simp [put, hk.extension, h.extension]
    · simp [put, hj, h.extension]
  tends j := by
    by_cases hj : j = i
    · subst hj
      simpa [put] using hk.tends
    · simpa [put, hj] using (h.tends j).evolve hk.evolves

theorem tended_step (h : Tended q w w') (hs : Step q w' w'') : Tended q w w'' := by
  cases hs with
  | deal i deed => exact tended_put h (DirectoryStore.keptBy_deed (h.tends i) deed)
  | reopen i => exact tended_put h (DirectoryStore.kept_reopened (h.tends i))
  | change c hc => exact tended_evolves h (evolves_change hc)
  | pass d hh hn hg => exact tended_evolves h (evolves_pass hh hn hg)

theorem tended_of_reaches (ho : Opened q w) (h : Reaches q w w') : Tended q w w' := by
  induction h with
  | start => exact tended_of_opened ho
  | step _ hs ih => exact tended_step ih hs

/-- Whatever the stores and other programs have done, every store answers what the folder shows at
this moment. -/
theorem answers_of_reaches (ho : Opened q w) (h : Reaches q w w') (i : ι) :
    (w'.stores i).dir = (w.stores i).dir ∧ (w'.stores i).extension = (w.stores i).extension ∧
      (w'.stores i).Answers w'.disk q := by
  have ht := tended_of_reaches ho h
  exact ⟨ht.dir i, ht.extension i, DirectoryStore.answers_of_tends (ht.tends i)⟩

def onRoot (ι : Type) (disk : Disk) (slashes : Nat) : World ι := ⟨disk, fun _ => rootStore slashes⟩

theorem opened_onRoot {ι : Type} {d : Disk} {k : Nat} (hd : d.Sound) (hroot : d.HasFolder [])
    (hl : ∀ n, d.NoLink [n]) (hpos : 0 < k) (hk : k < pathLimit) : Opened [] (onRoot ι d k) where
  sound := hd
  no_link := hl
  leads _ := resolve_slashes hroot hpos hk
  plain _ := by simp [onRoot, rootStore]
  no_slash _ := by simp [onRoot, rootStore]
  fresh _ := rfl

def rootFile (n b : Bytes) : Disk := Disk.empty.put [n] (.file b freshMode 1)

theorem get?_rootFile (n b : Bytes) : (rootFile n b).get? [n] = some (.file b freshMode 1) := by
  simp [rootFile]

theorem hasFolder_rootFile (n b : Bytes) : (rootFile n b).HasFolder [] := by
  refine ⟨0, ?_⟩
  rw [rootFile, get?_put, if_neg (by simp)]
  rfl

theorem opened_rootFile {ι : Type} {n b : Bytes} {k : Nat} (hn : IsName n) (hpos : 0 < k)
    (hk : k < pathLimit) : Opened [] (onRoot ι (rootFile n b) k) := by
  refine opened_onRoot ?_ (hasFolder_rootFile n b) (fun m target h => ?_) hpos hk
  · refine sound_empty.put (fun m hm => ?_) ?_
    · rw [List.mem_singleton.mp hm]
      exact hn
    · show (1 : Int) ≤ 1000000000
      decide
  · simp only [rootFile, get?_put] at h
    split at h
    · simp at h
    · exact absurd (eq_of_get?_empty h).1 (by simp)

theorem opened_empty {ι : Type} : Opened [] (onRoot ι Disk.empty 1) := by
  refine opened_onRoot sound_empty ⟨0, rfl⟩ (fun n target h => ?_) (by decide) (by decide)
  exact absurd (eq_of_get?_empty h).1 (by simp)

/-- What one of two stores has written is what the other one answers. -/
theorem answers_after_create :
    let w := onRoot Bool Disk.empty 1
    let w' := w.put true
      ((DirectoryStore.Deed.create ⟨"a", "A"⟩).dealing.exec (w.stores true) w.disk).2
    (w'.stores false).Answers w'.disk [] :=
  (answers_of_reaches opened_empty (.step .start (.deal _ true (.create ⟨"a", "A"⟩))) false).2.2

/-- A folder whose path leaves no room for the names in it hides its documents. -/
theorem document_hidden_by_long_path :
    ∃ w : World Unit, Opened [] w ∧
      w.disk.get? [encode (fileName (w.stores ()).extension "a")] =
        some (.file (encode "A") freshMode 1) ∧
      ((TemplateStore.get (σ := DirectoryStore) "a").exec (w.stores ()) w.disk).1 =
        .error (.storage ((w.stores ()).pathFor "a") .nameTooLong) := by
  have hfile : encode (fileName "html" "a") = [97, 46, 104, 116, 109, 108] := by decide
  have hname : IsName (encode (fileName "html" "a")) := by decide
  let d := rootFile (encode (fileName "html" "a")) (encode "A")
  have hroot : d.HasFolder [] := hasFolder_rootFile _ _
  have hget : d.get? [encode (fileName "html" "a")] = some (.file (encode "A") freshMode 1) :=
    get?_rootFile _ _
  have hopened : Opened [] (onRoot Unit d 4090) := opened_rootFile hname (by decide) (by decide)
  refine ⟨onRoot Unit d 4090, hopened, hget, ?_⟩
  have hanswers := (answers_of_reaches hopened .start ()).2.2
  have hlist := list_eq_ok (s := rootStore 4090) (d := d) (q := []) ⟨hopened.plain (),
    hopened.leads (), hroot, fun f x hx => hopened.sound.names hx f List.mem_cons_self⟩
  rw [hanswers.get _ hlist "a", shown_eq_storage_iff]
  have hlong : pathLimit ≤ ((rootStore 4090).pathFor "a").bytes.length := by
    rw [pathFor_eq, rootStore, length_child_slashes (by decide) hname.toIsStep, hfile]
    decide
  have hbytes := bytesAt_eq_some_iff.mpr ⟨_, _, hget⟩
  exact ⟨document?_eq_tooLong hbytes ⟨by decide, by decide⟩ hlong, rfl⟩

end World

end MailMerge
