import MailMerge.Proofs.Disk.Changes

/-! # Sound disks

A disk as it can come about: its names are such as a disk allows, and no stamp is ahead of its
clock. A walk leads only to places with such names, so every request keeps a disk sound.
-/

namespace MailMerge

def Entry.SoundAt (t : Moment) : Entry → Prop
  | .file _ _ s => s ≤ t
  | .folder s => s ≤ t
  | .link target => 0 ∉ target

theorem Entry.SoundAt.mono {t t' : Moment} {x : Entry} (h : x.SoundAt t) (ht : t ≤ t') :
    x.SoundAt t' := by
  cases x with
  | file | folder => exact Int.le_trans h ht
  | link => exact h

theorem Entry.SoundAt.withStamp {s t : Moment} {x : Entry} (h : x.SoundAt t) (hs : s ≤ t) :
    (x.withStamp s).SoundAt t := by
  cases x with
  | file | folder => exact hs
  | link => exact h

namespace Disk

variable {d d' d'' : Disk} {p q r : Place} {x : Entry} {s t : Moment}

/-- Every name on the disk is one that a disk allows, and so is every name that a link leads by. -/
structure Named (d : Disk) : Prop where
  here : ∀ n ∈ d.here, IsName n
  names : ∀ {p x}, d.get? p = some x → ∀ n ∈ p, IsName n
  links : ∀ {p target}, d.get? p = some (.link target) → 0 ∉ target

namespace Named

theorem tick (h : d.Named) : d.tick.Named := ⟨h.here, h.names, h.links⟩

theorem put (h : d.Named) (hp : ∀ n ∈ p, IsName n) (hx : ∀ target, x = .link target → 0 ∉ target) :
    (d.put p x).Named where
  here := h.here
  names {r y} hy := by
    rw [get?_put] at hy
    split at hy
    · subst r
      exact hp
    · exact h.names hy
  links {r target} hy := by
    rw [get?_put] at hy
    split at hy
    · exact hx target (Option.some.inj hy)
    · exact h.links hy

theorem of_subset (h : d.Named) (hh : d'.here = d.here)
    (hsub : ∀ {r y}, d'.get? r = some y → d.get? r = some y) : d'.Named where
  here := hh ▸ h.here
  names hy := h.names (hsub hy)
  links hy := h.links (hsub hy)

theorem stampAt (h : d.Named) (p : Place) (s : Moment) : (d.stampAt p s).Named := by
  unfold Disk.stampAt
  split
  · exact h
  · rename_i x hx
    refine h.put (h.names hx) fun target htarget => h.links (p := p) ?_
    rwa [Entry.withStamp_eq_link_iff.mp htarget] at hx

theorem moveTree (h : d.Named) (hq : ∀ n ∈ q, IsName n) : (d.moveTree p q).Named where
  here := (here_moveTree (d := d)).symm ▸ h.here
  names hy n hn := by
    obtain ⟨r', hr', hmem⟩ := moveTree_eq_some hy
    exact (hmem n hn).elim (h.names hr' n) (hq n)
  links hy := by
    obtain ⟨r', hr', -⟩ := moveTree_eq_some hy
    exact h.links hr'

end Named

theorem named_of_entries (hhere : ∀ n ∈ d.here, IsName n)
    (hnames : ∀ e ∈ d.entries, ∀ n ∈ e.1, IsName n)
    (hlinks : ∀ e ∈ d.entries, ∀ target, e.2 = .link target → 0 ∉ target) : d.Named where
  here := hhere
  names hx := hnames _ (mem_entries_iff.mpr hx)
  links hx := hlinks _ (mem_entries_iff.mpr hx) _ rfl

/-- Every name on the disk is one that a disk allows, and no stamp is ahead of the clock. -/
structure Sound (d : Disk) : Prop where
  here : ∀ n ∈ d.here, IsName n
  names : ∀ {p x}, d.get? p = some x → ∀ n ∈ p, IsName n
  entries : ∀ {p x}, d.get? p = some x → x.SoundAt d.now

theorem now_lt_tick (d : Disk) : d.now < d.tick.now := Int.lt_succ d.now

theorem get?_of_get?_drop {y : Entry} (h : (d.drop p).get? r = some y) : d.get? r = some y := by
  rw [get?_drop] at h
  split at h
  · simp at h
  · exact h

theorem get?_of_get?_dropUnder {y : Entry} (h : (d.dropUnder p).get? r = some y) :
    d.get? r = some y := by
  rw [get?_dropUnder] at h
  split at h
  · simp at h
  · exact h

namespace Sound

theorem named (h : d.Sound) : d.Named := ⟨h.here, h.names, fun hx => h.entries hx⟩

theorem of_named (h : d.Named) (he : ∀ {p x}, d.get? p = some x → x.SoundAt d.now) : d.Sound :=
  ⟨h.here, h.names, he⟩

theorem tick (h : d.Sound) : d.tick.Sound :=
  of_named h.named.tick fun hx => (h.entries hx).mono (Int.le_of_lt d.now_lt_tick)

theorem put (h : d.Sound) (hp : ∀ n ∈ p, IsName n) (hx : x.SoundAt d.now) :
    (d.put p x).Sound := by
  refine of_named (h.named.put hp fun target htarget => ?_) fun {r y} hy => ?_
  · rw [htarget] at hx
    exact hx
  · rw [get?_put] at hy
    split at hy
    · exact Option.some.inj hy ▸ hx
    · exact h.entries hy

theorem of_subset (h : d.Sound) (hh : d'.here = d.here) (hn : d'.now = d.now)
    (hsub : ∀ {r y}, d'.get? r = some y → d.get? r = some y) : d'.Sound :=
  of_named (h.named.of_subset hh hsub) fun hy => hn ▸ h.entries (hsub hy)

theorem drop (h : d.Sound) : (d.drop p).Sound := h.of_subset rfl rfl get?_of_get?_drop

theorem dropUnder (h : d.Sound) : (d.dropUnder p).Sound :=
  h.of_subset rfl rfl get?_of_get?_dropUnder

theorem stampAt (h : d.Sound) (hs : s ≤ d.now) : (d.stampAt p s).Sound := by
  refine of_named (h.named.stampAt p s) fun {r y} hy => ?_
  rw [now_stampAt]
  rw [get?_stampAt] at hy
  split at hy
  · obtain ⟨x, hx, rfl⟩ := Option.map_eq_some_iff.mp hy
    exact (h.entries hx).withStamp hs
  · exact h.entries hy

theorem moveTree (h : d.Sound) (hq : ∀ n ∈ q, IsName n) : (d.moveTree p q).Sound := by
  refine of_named (h.named.moveTree hq) fun hy => ?_
  obtain ⟨r', hr', -⟩ := moveTree_eq_some hy
  exact (now_moveTree (d := d)).symm ▸ h.entries hr'

end Sound

theorem eq_of_get?_empty (h : Disk.empty.get? p = some x) : p = [] ∧ x = .folder 0 := by
  have hmem := mem_entries_iff.mpr h
  simpa [Disk.empty] using hmem

theorem sound_empty : Disk.empty.Sound where
  here := nofun
  names hx := by
    obtain ⟨rfl, -⟩ := eq_of_get?_empty hx
    exact nofun
  entries hx := by
    obtain ⟨-, rfl⟩ := eq_of_get?_empty hx
    show (0 : Int) ≤ 1000000000
    decide

theorem Walks.isName {follow : Bool} {k : Nat} {names : List Bytes} (h : Walks d follow k names p r)
    (hd : d.Named) (hnames : ∀ m ∈ names, Path.slash ∉ m ∧ 0 ∉ m) (hp : ∀ n ∈ p, IsName n) :
    ∀ n ∈ r, IsName n := by
  have hnext : ∀ {m : Bytes} {rest : List Bytes} {p : Place}, Enters m →
      (∀ m' ∈ m :: rest, Path.slash ∉ m' ∧ 0 ∉ m') → (∀ n ∈ p, IsName n) →
        ∀ n ∈ m :: p, IsName n := by
    intro m rest p hm hnames hp n hn
    rcases List.mem_cons.mp hn with rfl | hn
    · exact hm.isName (hnames n List.mem_cons_self)
    · exact hp n hn
  induction h with
  | stop => exact hp
  | stay _ _ _ ih => exact ih (fun m hm => hnames m (List.mem_cons_of_mem _ hm)) hp
  | up _ _ ih =>
    exact ih (fun m hm => hnames m (List.mem_cons_of_mem _ hm))
      fun n hn => hp n (List.mem_of_mem_tail hn)
  | missing _ hm | keep _ hm => exact hnext hm hnames hp
  | link _ _ hx _ _ _ ih =>
    refine ih (fun m hm => ?_) ?_
    · rcases List.mem_append.mp hm with hm | hm
      · exact Path.names_plain (hd.links hx) m hm
      · exact hnames m (List.mem_cons_of_mem _ hm)
    · split
      · simp
      · exact hp
  | enter _ hm _ _ _ ih =>
    exact ih (fun m hm => hnames m (List.mem_cons_of_mem _ hm)) (hnext hm hnames hp)

theorem isName_of_resolve {follow : Bool} {path : Path} (hd : d.Named)
    (h : d.resolve follow path = .ok r) : ∀ n ∈ r, IsName n := by
  obtain ⟨hzero, -, -, hw⟩ := resolve_eq_ok_iff.mp h
  refine hw.isName hd (Path.names_plain hzero) ?_
  split
  · simp
  · exact hd.here

end Disk

end MailMerge
