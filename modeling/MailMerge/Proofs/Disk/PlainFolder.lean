import MailMerge.Proofs.Disk.Untouched

/-! # Folders without symbolic links

In a folder in which no symbolic link lies, a name leads to what lies under it and nowhere else. So
a request for one name changes nothing but what lies under that name, and the stamp of the folder.
-/

namespace MailMerge.Disk

variable {d d' d'' : Disk} {p q r : Place} {n m : Bytes} {path : Path} {A B : Bytes → Prop}
  {b : Bytes} {mode : Nat} {t : Moment} {follow : Bool}

/-- The path leads to a folder at `q` in which no symbolic link lies; what lies in it has a name
that a disk allows. -/
structure PlainFolder (path : Path) (d : Disk) (q : Place) : Prop where
  leads : d.resolve true path = .ok q
  folder : d.HasFolder q
  names : ∀ f x, d.get? (f :: q) = some x → IsName f
  no_link : ∀ f, d.NoLink (f :: q)

/-- Nothing has changed but what lies in the folder at `q` under a name with `A`, and the stamp of
the folder. -/
structure ChangesOnly (q : Place) (A : Bytes → Prop) (d d' : Disk) : Prop where
  here : d'.here = d.here
  links : SameLinks d d'
  folders : ∀ r, d.HasFolder r → d'.HasFolder r
  names : ∀ f x, d'.get? (f :: q) = some x → IsName f ∨ ∃ y, d.get? (f :: q) = some y
  others : ∀ p, p ≠ q → (∀ f, A f → p ≠ f :: q) → d'.get? p = d.get? p

namespace ChangesOnly

theorem refl (q : Place) (A : Bytes → Prop) (d : Disk) : ChangesOnly q A d d where
  here := rfl
  links := .refl d
  folders _ h := h
  names _ x hx := .inr ⟨x, hx⟩
  others _ _ _ := rfl

theorem trans (h : ChangesOnly q A d d') (h' : ChangesOnly q A d' d'') :
    ChangesOnly q A d d'' where
  here := h'.here.trans h.here
  links := h.links.trans h'.links
  folders r hr := h'.folders r (h.folders r hr)
  names f x hx := by
    rcases h'.names f x hx with hname | ⟨y, hy⟩
    · exact .inl hname
    · exact h.names f y hy
  others p hp hA := (h'.others p hp hA).trans (h.others p hp hA)

theorem mono (h : ChangesOnly q A d d') (hAB : ∀ f, A f → B f) : ChangesOnly q B d d' where
  here := h.here
  links := h.links
  folders := h.folders
  names := h.names
  others p hp hB := h.others p hp fun f hf => hB f (hAB f hf)

theorem tick (h : ChangesOnly q A d d') : ChangesOnly q A d d'.tick :=
  ⟨h.here, h.links, h.folders, h.names, h.others⟩

theorem stampAt (h : ChangesOnly q A d d') (t : Moment) : ChangesOnly q A d (d'.stampAt q t) where
  here := here_stampAt.trans h.here
  links := h.links.stampAt q t
  folders r hr := hasFolder_stampAt (h.folders r hr) q t
  names f x hx := by
    rw [get?_stampAt, if_neg (List.cons_ne_self f q)] at hx
    exact h.names f x hx
  others p hp hA := by
    rw [get?_stampAt, if_neg hp]
    exact h.others p hp hA

theorem put_file (h : ChangesOnly q A d d') (hA : A n)
    (hname : IsName n ∨ ∃ y, d'.get? (n :: q) = some y) (hlink : d'.NoLink (n :: q))
    (hfolder : ¬ d'.HasFolder (n :: q)) :
    ChangesOnly q A d (d'.put (n :: q) (.file b mode t)) := by
  refine h.trans ⟨rfl, sameLinks_put hlink (by simp), fun r hr => hasFolder_put hfolder hr,
    fun f x hx => ?_, fun p _ hp => by rw [get?_put, if_neg (hp n hA)]⟩
  rw [get?_put] at hx
  split at hx
  · rename_i hf
    obtain rfl := (List.cons.inj hf).1
    exact hname
  · exact .inr ⟨x, hx⟩

theorem put_folder (h : ChangesOnly q A d d') (hA : A n) (hname : IsName n)
    (hx : d'.get? (n :: q) = none) : ChangesOnly q A d (d'.put (n :: q) (.folder t)) := by
  have hlink : d'.NoLink (n :: q) := by simp [NoLink, hx]
  refine h.trans ⟨rfl, sameLinks_put hlink (by simp),
    fun r hr => hasFolder_put (not_hasFolder_of_get?_eq_none hx) hr, fun f x hfx => ?_,
    fun p _ hp => by rw [get?_put, if_neg (hp n hA)]⟩
  rw [get?_put] at hfx
  split at hfx
  · rename_i hf
    obtain rfl := (List.cons.inj hf).1
    exact .inl hname
  · exact .inr ⟨x, hfx⟩

theorem drop (h : ChangesOnly q A d d') (hA : A n) (hlink : d'.NoLink (n :: q))
    (hfolder : ¬ d'.HasFolder (n :: q)) : ChangesOnly q A d (d'.drop (n :: q)) := by
  refine h.trans ⟨rfl, sameLinks_drop hlink, fun r hr => hasFolder_drop hfolder hr,
    fun f x hx => ?_, fun p _ hp => by rw [get?_drop, if_neg (hp n hA)]⟩
  rw [get?_drop] at hx
  split at hx
  · simp at hx
  · exact .inr ⟨x, hx⟩

theorem child (h : ChangesOnly q A d d') (hn : ¬ A n) : d'.get? (n :: q) = d.get? (n :: q) := by
  apply h.others _ (List.cons_ne_self n q)
  rintro f hf heq
  obtain rfl := (List.cons.inj heq).1
  exact hn hf

theorem bytesAt (h : ChangesOnly q A d d') (hn : ¬ A n) :
    d'.bytesAt (n :: q) = d.bytesAt (n :: q) := bytesAt_congr (h.child hn)

end ChangesOnly

def roomFault (n : Bytes) : Fault := if 0 ∈ n then .zeroByte else .nameTooLong

namespace PlainFolder

theorem of_changesOnly (h : PlainFolder path d q) (hc : ChangesOnly q A d d') :
    PlainFolder path d' q where
  leads := resolve_mono hc.links hc.here hc.folders h.leads h.folder
  folder := hc.folders q h.folder
  names f x hx := by
    rcases hc.names f x hx with hname | ⟨y, hy⟩
    · exact hname
    · exact h.names f y hy
  no_link f := hc.links.noLink_iff.mpr (h.no_link f)

theorem resolve_child (h : PlainFolder path d q) (hn : HasRoom path n) :
    d.resolve follow (path.join ⟨n⟩).trimSlashes = .ok (n :: q) := by
  rw [Path.trimSlashes_join hn.name.toIsStep (bytes_ne_nil h.leads)]
  exact resolve_join h.leads h.folder hn.name hn.length_lt (.inr (h.no_link n))

theorem resolve_child_error (h : PlainFolder path d q) (hn : IsStep n)
    (hroom : ¬ HasRoom path n) :
    d.resolve follow (path.join ⟨n⟩).trimSlashes = .error (roomFault n) := by
  obtain ⟨hzero, hnil, -, hw⟩ := resolve_eq_ok_iff.mp h.leads
  obtain ⟨ns, t, hnames, ht, hjoin⟩ := Path.names_join hn hnil
  have hmem := Path.mem_join_iff hn hnil (b := 0) (by decide)
  rw [Path.trimSlashes_join hn hnil, roomFault]
  split
  · exact if_pos (hmem.mpr (.inr ‹_›))
  · rename_i hzero'
    have hzero : 0 ∉ (path.join ⟨n⟩).bytes := fun h => (hmem.mp h).elim hzero hzero'
    by_cases hlen : pathLimit ≤ (path.join ⟨n⟩).bytes.length
    · exact resolve_eq_nameTooLong hzero hlen
    · have hlong : nameLimit < n.length := Nat.not_le.mp fun hle =>
        hroom ⟨⟨hn, hzero', hle⟩, Nat.not_le.mp hlen⟩
      have hpos := Path.length_lt_length_join hn hnil
      have hne : (path.join ⟨n⟩).bytes ≠ [] := List.ne_nil_of_length_pos (by omega)
      obtain ⟨j, hj⟩ := hw.walk_append hnames ht h.folder follow n
      rw [resolve, if_neg hzero, if_neg hne, if_neg hlen, hjoin, Path.isAbsolute_join hn hnil, hj,
        walk_eq_nameTooLong h.folder hn hlong]

/-- A name that can be looked for leads to what lies under it, and there is room for it. -/
theorem of_resolve_child (h : PlainFolder path d q) (hn : IsStep n)
    (hr : d.resolve follow (path.join ⟨n⟩).trimSlashes = .ok r) : HasRoom path n ∧ r = n :: q := by
  by_cases hroom : HasRoom path n
  · exact ⟨hroom, Except.ok.inj (hr.symm.trans (h.resolve_child hroom))⟩
  · simp [h.resolve_child_error hn hroom] at hr

theorem write (h : PlainFolder path d q) (hn : IsStep n)
    (hwrite : d.write (path.join ⟨n⟩) b = .ok d') :
    HasRoom path n ∧ ChangesOnly q (· = n) d d' ∧
      ∃ mode t, d'.get? (n :: q) = some (.file b mode t) := by
  obtain ⟨r, hr, hcase⟩ := write_eq_ok hwrite
  obtain ⟨hroom, rfl⟩ := h.of_resolve_child hn hr
  have htick : ChangesOnly q (· = n) d d.tick := (ChangesOnly.refl q _ d).tick
  refine ⟨hroom, ?_⟩
  rcases hcase with ⟨b', m, t, hx, rfl⟩ | ⟨hx, rfl⟩
  · have hfolder := not_hasFolder_of_get?_eq_some hx rfl
    exact ⟨htick.put_file rfl (.inl hroom.name) (h.no_link n) hfolder, m, d.tick.now, by simp⟩
  · have hfolder := not_hasFolder_of_get?_eq_none hx
    refine ⟨(htick.put_file rfl (.inl hroom.name) (h.no_link n) hfolder).stampAt _, freshMode,
      d.tick.now, ?_⟩
    rw [List.tail_cons, get?_stampAt, if_neg (List.cons_ne_self n q), get?_put, if_pos rfl]

theorem rename (h : PlainFolder path d q) (hn : IsStep n) (hm : IsStep m) (hne : n ≠ m)
    (hx : d.get? (n :: q) = some (.file b mode t))
    (hrename : d.rename (path.join ⟨n⟩) (path.join ⟨m⟩) = .ok d') :
    HasRoom path m ∧ ChangesOnly q (fun f => f = n ∨ f = m) d d' ∧ d'.get? (n :: q) = none ∧
      d'.get? (m :: q) = some (.file b mode t) := by
  obtain ⟨p, r, x, hp, hr, hxp, hcase⟩ := rename_eq_ok hrename
  obtain ⟨-, rfl⟩ := h.of_resolve_child hn hp
  obtain ⟨hroom, rfl⟩ := h.of_resolve_child hm hr
  obtain rfl := Option.some.inj (hxp.symm.trans hx)
  have hne' : n :: q ≠ m :: q := fun heq => hne (List.cons.inj heq).1
  rcases hcase with ⟨heq, -⟩ | ⟨-, hfree, rfl⟩
  · exact absurd heq hne'
  have hdrop : ChangesOnly q (fun f => f = n ∨ f = m) d (d.tick.drop (n :: q)) :=
    (ChangesOnly.refl q _ d).tick.drop (.inl rfl) (h.no_link n)
      (not_hasFolder_of_get?_eq_some hx rfl)
  have hat : (d.tick.drop (n :: q)).get? (m :: q) = d.get? (m :: q) := by
    rw [get?_drop, if_neg hne'.symm, get?_tick]
  have hfolder : ¬ (d.tick.drop (n :: q)).HasFolder (m :: q) := by
    rw [HasFolder, hat]
    exact hfree rfl
  have hput : ChangesOnly q (fun f => f = n ∨ f = m) d
      ((d.tick.drop (n :: q)).put (m :: q) (.file b mode t)) :=
    hdrop.put_file (.inr rfl) (.inl hroom.name) (by rw [NoLink, hat]; exact h.no_link m) hfolder
  refine ⟨hroom, ?_, ?_⟩
  · simp only [moved, Entry.isFolder, Bool.false_eq_true, if_false, List.tail_cons]
    exact (hput.stampAt _).stampAt _
  · simp [moved, Entry.isFolder, get?_stampAt, hne']

/-- A file can be given every name that there is room for, unless it is the one of a folder. -/
theorem rename_eq (h : PlainFolder path d q) (hn : HasRoom path n) (hm : HasRoom path m)
    (hne : n ≠ m) (hx : d.get? (n :: q) = some (.file b mode t)) :
    d.rename (path.join ⟨n⟩) (path.join ⟨m⟩) =
      if d.isFolderAt (m :: q) then .error .isFolder
      else .ok (d.moved (n :: q) (m :: q) (.file b mode t)) := by
  have hnil := bytes_ne_nil h.leads
  have hn' := hn.name.toIsStep
  have hm' := hm.name.toIsStep
  have hplace : n :: q ≠ m :: q := fun heq => hne (List.cons.inj heq).1
  unfold Disk.rename isFolderAt
  simp only [h.resolve_child hn, h.resolve_child hm, ok_bind, Path.endsInSlash_join hn' hnil,
    Path.endsInSlash_join hm' hnil, Path.endsInDots_join hn' hnil, Path.endsInDots_join hm' hnil,
    hx, Entry.isFolder]
  rcases hy : d.get? (m :: q) with _ | _ | _ | _ <;> simp [hplace, Entry.isFolder, moved] <;> rfl

theorem remove (h : PlainFolder path d q) (hn : IsStep n)
    (hremove : d.remove (path.join ⟨n⟩) = .ok d') :
    ChangesOnly q (· = n) d d' ∧ d'.get? (n :: q) = none := by
  obtain ⟨r, x, hr, hx, hfolder, rfl⟩ := remove_eq_ok hremove
  obtain ⟨-, rfl⟩ := h.of_resolve_child hn hr
  have hdrop : ChangesOnly q (· = n) d (d.tick.drop (n :: q)) :=
    (ChangesOnly.refl q _ d).tick.drop rfl (h.no_link n) (not_hasFolder_of_get?_eq_some hx hfolder)
  refine ⟨hdrop.stampAt _, ?_⟩
  rw [List.tail_cons, get?_stampAt, if_neg (List.cons_ne_self n q), get?_drop, if_pos rfl]

theorem setMode (h : PlainFolder path d q) (hn : IsStep n) {mode' : Nat}
    (hx : d.get? (n :: q) = some (.file b mode t))
    (hset : d.setMode (path.join ⟨n⟩) mode' = .ok d') :
    ChangesOnly q (· = n) d d' ∧ d'.get? (n :: q) = some (.file b mode' t) := by
  rw [Disk.setMode, ← Path.trimSlashes_join hn (bytes_ne_nil h.leads)] at hset
  obtain ⟨r, hr, hset⟩ := exists_of_bind_eq_ok hset
  obtain ⟨hroom, rfl⟩ := h.of_resolve_child hn hr
  simp only [hx] at hset
  obtain rfl := Except.ok.inj hset
  constructor
  · exact (ChangesOnly.refl q _ d).put_file rfl (.inl hroom.name) (h.no_link n)
      (not_hasFolder_of_get?_eq_some hx rfl)
  · rw [get?_put, if_pos rfl]

theorem makeFolder (h : PlainFolder path d q) (hn : IsStep n)
    (hmake : d.makeFolder (path.join ⟨n⟩) = .ok d') :
    HasRoom path n ∧ d.get? (n :: q) = none ∧ ChangesOnly q (· = n) d d' ∧
      d'.HasFolder (n :: q) := by
  obtain ⟨r, hr, hx, rfl⟩ := makeFolder_eq_ok hmake
  obtain ⟨hroom, rfl⟩ := h.of_resolve_child hn hr
  have htick : ChangesOnly q (· = n) d d.tick := (ChangesOnly.refl q _ d).tick
  refine ⟨hroom, hx, (htick.put_folder rfl hroom.name hx).stampAt _,
    hasFolder_stampAt ⟨d.tick.now, ?_⟩ _ _⟩
  rw [get?_put, if_pos rfl]

end PlainFolder

end MailMerge.Disk
