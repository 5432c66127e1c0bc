import MailMerge.Proofs.Disk.Evolution

/-! # What changes leave as it is

A change to a file touches no other file and takes no folder away. So as long as no change is made
to a certain file, it keeps its content, and every path to it leads where it led.
-/

namespace MailMerge.Disk

variable {d d' d'' : Disk} {p q r : Place} {x : Entry} {path path' : Path} {bytes : Bytes}
  {m n : Bytes}

/-- What lies at `p` has the same content as before, and every folder is still there. -/
structure Untouched (p : Place) (d d' : Disk) : Prop where
  bytes : d'.bytesAt p = d.bytesAt p
  folders : ∀ r, d.HasFolder r → d'.HasFolder r

namespace Untouched

theorem refl (p : Place) (d : Disk) : Untouched p d d := ⟨rfl, fun _ h => h⟩

theorem trans (h : Untouched p d d') (h' : Untouched p d' d'') : Untouched p d d'' :=
  ⟨h'.bytes.trans h.bytes, fun r hr => h'.folders r (h.folders r hr)⟩

theorem stampAt (h : Untouched p d d') (r : Place) (t : Moment) : Untouched p d (d'.stampAt r t) :=
  ⟨bytesAt_stampAt.trans h.bytes, fun r' hr' => hasFolder_stampAt (h.folders r' hr') r t⟩

theorem put (h : Untouched p d d') (hr : ¬ d'.HasFolder r) (hp : p ≠ r) :
    Untouched p d (d'.put r x) where
  bytes := (bytesAt_congr (by rw [get?_put, if_neg hp])).trans h.bytes
  folders r' hr' := hasFolder_put hr (h.folders r' hr')

theorem drop (h : Untouched p d d') (hr : ¬ d'.HasFolder r) (hp : p ≠ r) :
    Untouched p d (d'.drop r) where
  bytes := (bytesAt_congr (by rw [get?_drop, if_neg hp])).trans h.bytes
  folders r' hr' := hasFolder_drop hr (h.folders r' hr')

theorem tick (h : Untouched p d d') : Untouched p d d'.tick := ⟨h.bytes, h.folders⟩

end Untouched

theorem not_hasFolder_of_get?_eq_none (h : d.get? r = none) : ¬ d.HasFolder r := by
  rintro ⟨t, ht⟩
  simp [h] at ht

theorem not_hasFolder_of_get?_eq_some (h : d.get? r = some x) (hx : x.isFolder = false) :
    ¬ d.HasFolder r := by
  rintro ⟨t, ht⟩
  obtain rfl := Option.some.inj (h.symm.trans ht)
  simp [Entry.isFolder] at hx

theorem untouched_write (h : d.write path bytes = .ok d')
    (hp : ∀ r, d.resolve true path.trimSlashes = .ok r → p ≠ r) : Untouched p d d' := by
  obtain ⟨r, hr, ⟨b, m, t, hx, rfl⟩ | ⟨hx, rfl⟩⟩ := write_eq_ok h
  · exact (Untouched.refl p d).tick.put (not_hasFolder_of_get?_eq_some hx rfl) (hp r hr)
  · refine Untouched.stampAt ?_ _ _
    exact (Untouched.refl p d).tick.put (not_hasFolder_of_get?_eq_none hx) (hp r hr)

theorem untouched_remove (h : d.remove path = .ok d')
    (hp : ∀ r, d.resolve false path.trimSlashes = .ok r → p ≠ r) : Untouched p d d' := by
  obtain ⟨r, x, hr, hx, hfolder, rfl⟩ := remove_eq_ok h
  refine Untouched.stampAt ?_ _ _
  exact (Untouched.refl p d).tick.drop (not_hasFolder_of_get?_eq_some hx hfolder) (hp r hr)

theorem untouched_rename (h : d.rename path path' = .ok d')
    (hfrom : ∀ r, d.resolve false path.trimSlashes = .ok r → p ≠ r ∧ ¬ d.HasFolder r)
    (hto : ∀ r, d.resolve false path'.trimSlashes = .ok r → p ≠ r) : Untouched p d d' := by
  obtain ⟨a, b, x, ha, hb, hx, ⟨-, rfl⟩ | ⟨-, hfree, rfl⟩⟩ := rename_eq_ok h
  · exact .refl p _
  · obtain ⟨hpa, hfolder⟩ := hfrom a ha
    have hx' : x.isFolder = false := by
      cases x with
      | folder t => exact absurd ⟨t, hx⟩ hfolder
      | file | link => rfl
    have hdrop := (Untouched.refl p d).tick.drop (r := a) hfolder hpa
    have hb' : ¬ (d.tick.drop a).HasFolder b := by
      rintro ⟨t, ht⟩
      rw [get?_drop] at ht
      split at ht
      · simp at ht
      · exact hfree hx' ⟨t, ht⟩
    simp only [moved, hx', Bool.false_eq_true, if_false]
    exact ((hdrop.put hb' (hto b hb)).stampAt _ _).stampAt _ _

theorem untouched_makeFolder (h : d.makeFolder path = .ok d') : Untouched p d d' := by
  obtain ⟨r, -, hx, rfl⟩ := makeFolder_eq_ok h
  refine Untouched.stampAt ?_ _ _
  by_cases hp : p = r
  · subst hp
    refine ⟨?_, fun r' hr' => hasFolder_put (not_hasFolder_of_get?_eq_none hx) hr'⟩
    simp [bytesAt, hx]
  · exact (Untouched.refl p d).tick.put (not_hasFolder_of_get?_eq_none hx) hp

theorem untouched_settle {e : Except Fault Disk} (h : ∀ d', e = .ok d' → Untouched p d d') :
    Untouched p d (d.settle e).2 :=
  holds_after_settle (P := Untouched p d) (.refl p d) h

theorem sameLinks_settle {e : Except Fault Disk} (h : ∀ d', e = .ok d' → SameLinks d d') :
    SameLinks d (d.settle e).2 :=
  holds_after_settle (P := SameLinks d) (.refl d) h

theorem untouched_makeChain (p : Place) (paths : List Path) (d : Disk) :
    Untouched p d ((Program.makeChain paths).run d).2 :=
  relates_makeChain (.refl p) .trans
    (fun _ _ => untouched_settle fun _ h => untouched_makeFolder h) paths d

/-- A change to files in the folder at `q`, but not to the one that is called `n` there. -/
inductive Change.ToOthers (q : Place) (n : Bytes) (d : Disk) : Change → Prop
  /-- Makes a file or gives a file another content. -/
  | write {path : Path} {bytes m : Bytes} (hm : m ≠ n)
    (h : d.resolve true path.trimSlashes = .ok (m :: q)) : ToOthers q n d (.write path bytes)
  | remove {path : Path} {m : Bytes} (hm : m ≠ n)
    (h : d.resolve false path.trimSlashes = .ok (m :: q)) (hfile : ¬ d.HasFolder (m :: q)) :
    ToOthers q n d (.remove path)
  | rename {path path' : Path} {m m' : Bytes} (hm : m ≠ n) (hm' : m' ≠ n)
    (h : d.resolve false path.trimSlashes = .ok (m :: q))
    (h' : d.resolve false path'.trimSlashes = .ok (m' :: q)) (hfile : ¬ d.HasFolder (m :: q)) :
    ToOthers q n d (.rename path path')

namespace Change.ToOthers

variable {c : Change}

/-- What is taken away is no folder with all that it holds. -/
theorem remove_of_removeTree (h : d.resolve false path.trimSlashes = .ok r)
    (hr : ¬ d.HasFolder r) (hremove : d.removeTree path = .ok d') : d.remove path = .ok d' := by
  rcases removeTree_eq_ok hremove with ⟨r', hr', hfolder, -⟩ | hremove
  · obtain rfl := Except.ok.inj (h.symm.trans hr')
    exact absurd hfolder hr
  · exact hremove

theorem untouched (h : c.ToOthers q n d) : Untouched (n :: q) d (d.change c) := by
  have hne : ∀ {m r}, m ≠ n → r = m :: q → n :: q ≠ r := by
    rintro m r hm rfl heq
    exact hm (List.cons.inj heq).1.symm
  cases h with
  | @write path bytes m hm h =>
    rw [change_write]
    have hmade := evolves_makeChain q (path.parent?.getD ⟨[]⟩).ancestors d
    refine (untouched_makeChain _ _ d).trans (untouched_settle fun d' hd' => ?_)
    refine untouched_write hd' fun r hr => hne hm ?_
    exact (resolve_unique hmade.links hmade.here h hr).symm
  | @remove path m hm h hfile =>
    rw [change_remove]
    refine untouched_settle fun d' hd' => ?_
    refine untouched_remove (remove_of_removeTree h hfile hd') fun r hr => hne hm ?_
    exact Except.ok.inj (hr.symm.trans h)
  | @rename path path' m m' hm hm' h h' hfile =>
    rw [change_rename]
    refine untouched_settle fun d' hd' => untouched_rename hd' (fun r hr => ?_) fun r hr => ?_
    · obtain rfl := Except.ok.inj (h.symm.trans hr)
      exact ⟨hne hm rfl, hfile⟩
    · exact hne hm' (Except.ok.inj (hr.symm.trans h'))

/-- In a folder without symbolic links there is nothing else that a change to files could affect. -/
theorem spares (h : c.ToOthers q n d) (hl : ∀ m, d.NoLink (m :: q)) : c.Spares q d := by
  cases h with
  | @write path bytes m hm h => exact ⟨(evolves_change_write path bytes d q).links, trivial⟩
  | @remove path m hm h hfile =>
    refine ⟨?_, trivial⟩
    rw [change_remove]
    refine sameLinks_settle fun d' hd' => ?_
    obtain ⟨r, x, hr, -, -, rfl⟩ := remove_eq_ok (remove_of_removeTree h hfile hd')
    obtain rfl := Except.ok.inj (h.symm.trans hr)
    exact (sameLinks_drop (d := d.tick) (hl m)).stampAt _ _
  | @rename path path' m m' hm hm' h h' hfile =>
    constructor
    · rw [change_rename]
      refine sameLinks_settle fun d' hd' => ?_
      obtain ⟨a, b, x, ha, hb, hx, ⟨-, rfl⟩ | ⟨-, -, rfl⟩⟩ := rename_eq_ok hd'
      · exact .refl _
      · obtain rfl := Except.ok.inj (h.symm.trans ha)
        obtain rfl := Except.ok.inj (h'.symm.trans hb)
        cases x with
        | file b mode t => exact sameLinks_moved hx (hl m')
        | folder t => exact absurd ⟨t, hx⟩ hfile
        | link target => exact absurd hx (hl m target)
    · intro r hr hsuffix
      obtain rfl := Except.ok.inj (h'.symm.trans hr)
      have hlen := hsuffix.length_le
      simp only [List.length_cons] at hlen
      omega

end Change.ToOthers

end MailMerge.Disk
