import MailMerge.Proofs.Disk.Sound

/-! # How a folder evolves

Every change stamps what it changes later than all that was there before. So a folder whose own
stamp and whose files are not from after a moment holds the same files as at that moment.
-/

namespace MailMerge.Disk

variable {d d' d'' : Disk} {p q r : Place} {x : Entry} {s t : Moment}

def fileAt (d : Disk) (p : Place) : Option (Bytes × Moment) :=
  match d.get? p with
  | some (.file b _ s) => some (b, s)
  | _ => none

theorem fileAt_congr (h : d'.get? p = d.get? p) : d'.fileAt p = d.fileAt p := by
  rw [fileAt, h, fileAt]

/-- If a folder lies at `q` after the moment `t` and is not stamped after it, the folder lay there
before with the same stamp, and each file in it is as it was or is stamped after `t`. -/
def Since (t : Moment) (q : Place) (d d' : Disk) : Prop :=
  ∀ s, d'.get? q = some (.folder s) → t < s ∨
    (d.get? q = some (.folder s) ∧ ∀ n, d'.fileAt (n :: q) = d.fileAt (n :: q) ∨
      ∃ b s', d'.fileAt (n :: q) = some (b, s') ∧ t < s')

namespace Since

theorem of_same (h : d'.get? q = d.get? q) (hn : ∀ n, d'.get? (n :: q) = d.get? (n :: q)) :
    Since t q d d' :=
  fun _ hs => .inr ⟨h ▸ hs, fun n => .inl (fileAt_congr (hn n))⟩

theorem refl (t : Moment) (q : Place) (d : Disk) : Since t q d d :=
  of_same rfl fun _ => rfl

theorem trans (h : Since t q d d') (h' : Since t q d' d'') : Since t q d d'' := by
  intro s hs
  rcases h' s hs with hlt | ⟨hs', hfiles'⟩
  · exact .inl hlt
  · rcases h s hs' with hlt | ⟨hs, hfiles⟩
    · exact .inl hlt
    · refine .inr ⟨hs, fun n => ?_⟩
      rcases hfiles' n with heq | hnew
      · rw [heq]
        exact hfiles n
      · exact .inr hnew

theorem mono (h : Since t q d d') (hs : s ≤ t) : Since s q d d' := by
  intro s' hs'
  rcases h s' hs' with hlt | ⟨hq, hfiles⟩
  · exact .inl (Int.lt_of_le_of_lt hs hlt)
  · refine .inr ⟨hq, fun n => (hfiles n).imp_right ?_⟩
    rintro ⟨b, s', hfile, hlt⟩
    exact ⟨b, s', hfile, Int.lt_of_le_of_lt hs hlt⟩

theorem of_off (P : Place → Prop) (hoff : ∀ r, ¬ P r → d'.get? r = d.get? r)
    (hq : P q → ¬ d'.HasFolder q) (hchild : ∀ n, P (n :: q) → P q) : Since t q d d' := by
  intro s hs
  have hPq : ¬ P q := fun h => hq h ⟨s, hs⟩
  exact of_same (hoff q hPq) (fun n => hoff _ fun h => hPq (hchild n h)) s hs

theorem stampAt (h : Since t q d d') (p : Place) (hs : t < s) : Since t q d (d'.stampAt p s) := by
  refine h.trans fun s' hs' => ?_
  rw [get?_stampAt] at hs'
  split at hs'
  · obtain ⟨x, -, hx⟩ := Option.map_eq_some_iff.mp hs'
    exact .inl (Entry.eq_of_withStamp_eq_folder hx ▸ hs)
  · refine .inr ⟨hs', fun n => ?_⟩
    by_cases hn : n :: q = p
    · cases hx : d'.get? p with
      | none => exact .inl (by simp [fileAt, get?_stampAt, hn, hx])
      | some x =>
        cases x with
        | file b m s' =>
          exact .inr ⟨b, s, by simp [fileAt, get?_stampAt, hn, hx, Entry.withStamp], hs⟩
        | folder | link =>
          exact .inl (by simp [fileAt, get?_stampAt, hn, hx, Entry.withStamp])
    · exact .inl (fileAt_congr (by rw [get?_stampAt, if_neg hn]))

theorem stampAt_self (d d' : Disk) (q : Place) (hs : t < s) : Since t q d (d'.stampAt q s) := by
  intro s' hs'
  rw [get?_stampAt, if_pos rfl] at hs'
  obtain ⟨x, -, hx⟩ := Option.map_eq_some_iff.mp hs'
  exact .inl (Entry.eq_of_withStamp_eq_folder hx ▸ hs)

theorem put_file {b : Bytes} {m : Nat} (hs : t < s) : Since t q d (d.put p (.file b m s)) := by
  intro s' hs'
  rw [get?_put] at hs'
  split at hs'
  · simp at hs'
  · refine .inr ⟨hs', fun n => ?_⟩
    by_cases hn : n :: q = p
    · exact .inr ⟨b, s, by simp [fileAt, hn], hs⟩
    · exact .inl (fileAt_congr (by rw [get?_put, if_neg hn]))

theorem put_folder (hs : t < s) (hp : d.get? p = none) : Since t q d (d.put p (.folder s)) := by
  intro s' hs'
  rw [get?_put] at hs'
  split at hs'
  · exact .inl (Entry.folder.inj (Option.some.inj hs') ▸ hs)
  · refine .inr ⟨hs', fun n => .inl ?_⟩
    by_cases hn : n :: q = p
    · simp [fileAt, hn, hp]
    · exact fileAt_congr (by rw [get?_put, if_neg hn])

end Since

/-- What becomes of a disk in time, as far as the folder at `q` is concerned: paths lead where they
led, and what is changed in the folder is stamped later than all that was there before. -/
structure Evolves (q : Place) (d d' : Disk) : Prop where
  here : d'.here = d.here
  links : SameLinks d d'
  now : d.now ≤ d'.now
  sound : d.Sound → d'.Sound
  since : Since d.now q d d'

namespace Evolves

theorem refl (q : Place) (d : Disk) : Evolves q d d where
  here := rfl
  links := .refl d
  now := Int.le_refl _
  sound h := h
  since := .refl _ q d

theorem trans (h : Evolves q d d') (h' : Evolves q d' d'') : Evolves q d d'' where
  here := h'.here.trans h.here
  links := h.links.trans h'.links
  now := Int.le_trans h.now h'.now
  sound hd := h'.sound (h.sound hd)
  since := h.since.trans (h'.since.mono h.now)

theorem of_tick (hh : d'.here = d.here) (hlinks : SameLinks d d') (hn : d'.now = d.tick.now)
    (hsound : d.Sound → d'.Sound) (hsince : Since d.now q d d') : Evolves q d d' where
  here := hh
  links := hlinks
  now := by
    rw [hn]
    exact Int.le_of_lt d.now_lt_tick
  sound := hsound
  since := hsince

end Evolves

theorem sameLinks_put (hp : d.NoLink p) (hx : ∀ target, x ≠ .link target) :
    SameLinks d (d.put p x) := by
  intro r target
  rw [get?_put]
  split
  · subst r
    simp [hp target, hx target]
  · rfl

theorem sameLinks_drop (hp : d.NoLink p) : SameLinks d (d.drop p) := by
  intro r target
  rw [get?_drop]
  split
  · subst r
    simp [hp target]
  · rfl

theorem SameLinks.stampAt (h : SameLinks d d') (p : Place) (s : Moment) :
    SameLinks d (d'.stampAt p s) := by
  refine h.trans fun r target => ?_
  rw [get?_stampAt]
  split
  · subst r
    simp
  · rfl

theorem sameLinks_moved {b : Bytes} {m : Nat} (hp : d.get? p = some (.file b m s))
    (hr : d.NoLink r) : SameLinks d (d.moved p r (.file b m s)) := by
  have hdrop : SameLinks d.tick (d.tick.drop p) := sameLinks_drop fun target => by simp [hp]
  have hput := sameLinks_put (x := .file b m s) (hdrop.noLink_iff.mpr hr) (by simp)
  exact ((hdrop.trans hput).stampAt _ _).stampAt _ _

section Requests

variable {path path' : Path} {bytes : Bytes}

theorem evolves_write (q : Place) (h : d.write path bytes = .ok d') : Evolves q d d' := by
  obtain ⟨r, hr, ⟨b, m, s, hx, rfl⟩ | ⟨hx, rfl⟩⟩ := write_eq_ok h
  · have hlinks : SameLinks d.tick (d.tick.put r (.file bytes m d.tick.now)) :=
      sameLinks_put (fun target => by simp [hx]) (by simp)
    refine .of_tick rfl hlinks rfl (fun hd => ?_) (Since.put_file (d := d.tick) d.now_lt_tick)
    exact hd.tick.put (isName_of_resolve hd.named hr) (Int.le_refl _)
  · have hlinks : SameLinks d.tick (d.tick.put r (.file bytes freshMode d.tick.now)) :=
      sameLinks_put (fun target => by simp [hx]) (by simp)
    refine .of_tick here_stampAt (hlinks.stampAt _ _) now_stampAt (fun hd => ?_) ?_
    · exact (hd.tick.put (isName_of_resolve hd.named hr) (Int.le_refl _)).stampAt (Int.le_refl _)
    · exact (Since.put_file (d := d.tick) d.now_lt_tick).stampAt _ d.now_lt_tick

theorem named_write (hd : d.Named) (h : d.write path bytes = .ok d') : d'.Named := by
  obtain ⟨r, hr, ⟨b, m, s, -, rfl⟩ | ⟨-, rfl⟩⟩ := write_eq_ok h
  · exact hd.tick.put (isName_of_resolve hd hr) (by simp)
  · exact (hd.tick.put (isName_of_resolve hd hr) (by simp)).stampAt _ _

theorem evolves_makeFolder (q : Place) (h : d.makeFolder path = .ok d') : Evolves q d d' := by
  obtain ⟨r, hr, hx, rfl⟩ := makeFolder_eq_ok h
  have hlinks : SameLinks d.tick (d.tick.put r (.folder d.tick.now)) :=
    sameLinks_put (fun target => by simp [hx]) (by simp)
  refine .of_tick here_stampAt (hlinks.stampAt _ _) now_stampAt (fun hd => ?_) ?_
  · exact (hd.tick.put (isName_of_resolve hd.named hr) (Int.le_refl _)).stampAt (Int.le_refl _)
  · exact (Since.put_folder (d := d.tick) d.now_lt_tick hx).stampAt _ d.now_lt_tick

theorem evolves_remove (q : Place) (h : d.remove path = .ok d') (hlinks : SameLinks d d') :
    Evolves q d d' := by
  obtain ⟨r, x, -, hx, hfolder, rfl⟩ := remove_eq_ok h
  refine .of_tick here_stampAt hlinks now_stampAt
    (fun hd => hd.tick.drop.stampAt (Int.le_refl _)) ?_
  by_cases hq : r.tail = q
  · exact hq ▸ Since.stampAt_self _ _ _ d.now_lt_tick
  · refine Since.stampAt (Since.of_off (fun r' => r' = r) ?_ ?_ ?_) _ d.now_lt_tick
    · intro r' hr'
      rw [get?_drop, if_neg hr', get?_tick]
    · rintro rfl ⟨s, hs⟩
      simp at hs
    · rintro n rfl
      exact absurd rfl hq

theorem evolves_removeTree (q : Place) (h : d.removeTree path = .ok d') (hlinks : SameLinks d d') :
    Evolves q d d' := by
  rcases removeTree_eq_ok h with ⟨r, -, -, rfl⟩ | h
  · refine .of_tick here_stampAt hlinks now_stampAt
      (fun hd => hd.tick.dropUnder.stampAt (Int.le_refl _)) ?_
    by_cases hq : r.tail = q
    · exact hq ▸ Since.stampAt_self _ _ _ d.now_lt_tick
    · refine Since.stampAt (Since.of_off (fun r' => r <:+ r') ?_ ?_ ?_) _ d.now_lt_tick
      · intro r' hr'
        rw [get?_dropUnder, if_neg hr', get?_tick]
      · rintro hr ⟨s, hs⟩
        simp [get?_dropUnder, hr] at hs
      · intro n hn
        rcases List.suffix_cons_iff.mp hn with rfl | hr
        · exact absurd rfl hq
        · exact hr
  · exact evolves_remove q h hlinks

/-- Where something is moved from one folder to another, both are stamped. -/
theorem since_moved (hr : ¬ r <:+ q) : Since d.now q d (d.moved p r x) := by
  unfold moved
  by_cases hp : p.tail = q
  · exact hp ▸ Since.stampAt (Since.stampAt_self _ _ _ d.now_lt_tick) _ d.now_lt_tick
  by_cases hrq : r.tail = q
  · exact hrq ▸ Since.stampAt_self _ _ _ d.now_lt_tick
  refine Since.stampAt (Since.stampAt ?_ _ d.now_lt_tick) _ d.now_lt_tick
  split
  · refine Since.of_off (fun r' => p <:+ r' ∨ r <:+ r') ?_ ?_ ?_
    · intro r' hr'
      obtain ⟨hp', hr'⟩ := not_or.mp hr'
      rw [get?_moveTree _ _ hr', if_neg hp', get?_tick]
    · rintro (hpq | hrq') ⟨s, hs⟩
      · simp [get?_moveTree _ _ hr, hpq] at hs
      · exact hr hrq'
    · rintro n (hn | hn)
      · rcases List.suffix_cons_iff.mp hn with rfl | hpq
        · exact absurd rfl hp
        · exact .inl hpq
      · rcases List.suffix_cons_iff.mp hn with rfl | hrq'
        · exact absurd rfl hrq
        · exact .inr hrq'
  · rename_i hx
    refine Since.of_off (fun r' => r' = p ∨ r' = r) ?_ ?_ ?_
    · intro r' hr'
      obtain ⟨hp', hr'⟩ := not_or.mp hr'
      rw [get?_put, if_neg hr', get?_drop, if_neg hp', get?_tick]
    · rintro hq ⟨s, hs⟩
      rw [get?_put, get?_drop] at hs
      split at hs
      · exact hx (Option.some.inj hs ▸ rfl)
      · rcases hq with rfl | rfl
        · simp at hs
        · contradiction
    · rintro n (rfl | rfl)
      · exact absurd rfl hp
      · exact absurd rfl hrq

theorem here_moved : (d.moved p r x).here = d.here := by
  unfold moved
  split
  · rw [here_stampAt, here_stampAt, here_moveTree]
    rfl
  · rw [here_stampAt, here_stampAt]
    rfl

theorem now_moved : (d.moved p r x).now = d.tick.now := by
  unfold moved
  split
  · rw [now_stampAt, now_stampAt, now_moveTree]
  · rw [now_stampAt, now_stampAt]
    rfl

theorem sound_moved (hd : d.Sound) (hx : d.get? p = some x) (hr : ∀ n ∈ r, IsName n) :
    (d.moved p r x).Sound := by
  have hstamped : ∀ {d' : Disk}, d'.Sound → d'.now = d.tick.now →
      ((d'.stampAt p.tail d.tick.now).stampAt r.tail d.tick.now).Sound := by
    intro d' hd' hn
    refine (hd'.stampAt (Int.le_of_eq hn.symm)).stampAt ?_
    rw [now_stampAt]
    exact Int.le_of_eq hn.symm
  unfold moved
  split
  · exact hstamped (hd.tick.moveTree hr) now_moveTree
  · exact hstamped (hd.tick.drop.put hr (hd.tick.entries hx)) rfl

theorem named_moved (hd : d.Named) (hx : d.get? p = some x) (hr : ∀ n ∈ r, IsName n) :
    (d.moved p r x).Named := by
  unfold moved
  split
  · exact ((hd.tick.moveTree hr).stampAt _ _).stampAt _ _
  · have hdrop : (d.tick.drop p).Named := hd.tick.of_subset rfl get?_of_get?_drop
    refine ((hdrop.put hr fun target htarget => ?_).stampAt _ _).stampAt _ _
    exact hd.links (htarget ▸ hx)

theorem evolves_rename {q : Place} (h : d.rename path path' = .ok d') (hlinks : SameLinks d d')
    (hr : ∀ r, d.resolve false path'.trimSlashes = .ok r → ¬ r <:+ q) : Evolves q d d' := by
  obtain ⟨p, r, x, -, hr', hx, ⟨-, rfl⟩ | ⟨-, -, rfl⟩⟩ := rename_eq_ok h
  · exact .refl q _
  · refine .of_tick here_moved hlinks now_moved (fun hd => ?_) (since_moved (hr r hr'))
    exact sound_moved hd hx (isName_of_resolve hd.named hr')

theorem named_rename (hd : d.Named) (h : d.rename path path' = .ok d') : d'.Named := by
  obtain ⟨p, r, x, -, hr, hx, ⟨-, rfl⟩ | ⟨-, -, rfl⟩⟩ := rename_eq_ok h
  · exact hd
  · exact named_moved hd hx (isName_of_resolve hd hr)

end Requests

theorem settle_snd (d : Disk) (e : Except Fault Disk) : (d.settle e).2 = e.toOption.getD d := by
  cases e <;> rfl

theorem holds_after_settle {P : Disk → Prop} {e : Except Fault Disk} (hd : P d)
    (h : ∀ d', e = .ok d' → P d') : P (d.settle e).2 := by
  cases e with
  | error fault => exact hd
  | ok d' => exact h d' rfl

theorem evolves_settle {e : Except Fault Disk} (h : ∀ d', e = .ok d' → Evolves q d d') :
    Evolves q d (d.settle e).2 :=
  holds_after_settle (P := Evolves q d) (.refl q d) h

theorem run_isFolder (path : Path) (d : Disk) : ((Program.isFolder path).run d).2 = d := by
  have hlook : d.perform (.look path) = (d.look path, d) := rfl
  rw [Program.isFolder, Program.run_bind, Program.run_perform, hlook]
  cases d.look path <;> rfl

theorem run_unlessFolder (path : Path) (fault : Fault) (d : Disk) :
    ((Program.unlessFolder path fault).run d).2 = d := by
  rw [Program.unlessFolder, Program.run_bind, run_isFolder]
  split <;> rfl

theorem evolves_perform_makeFolder (q : Place) (path : Path) (d : Disk) :
    Evolves q d (d.perform (.makeFolder path)).2 :=
  evolves_settle fun _ h => evolves_makeFolder q h

/-- What the making of one folder does to a disk, the making of a folder with those above it does,
if it may happen any number of times. -/
theorem relates_makeChain {R : Disk → Disk → Prop} (refl : ∀ d, R d d)
    (trans : ∀ {d d' d''}, R d d' → R d' d'' → R d d'')
    (step : ∀ path d, R d (d.perform (.makeFolder path)).2) (paths : List Path) (d : Disk) :
    R d ((Program.makeChain paths).run d).2 := by
  induction paths generalizing d with
  | nil => exact refl d
  | cons path above ih =>
    have hfirst := step path d
    rw [Program.makeChain, Program.run_bind, Program.run_perform]
    split
    · exact hfirst
    · rw [Program.run_bind]
      have habove := trans hfirst (ih (d.perform (.makeFolder path)).2)
      split
      · exact habove
      · rw [Program.run_bind, Program.run_perform]
        have hlast := trans habove (step path _)
        split
        · exact hlast
        · rw [run_unlessFolder]
          exact hlast
    · rw [run_unlessFolder]
      exact hfirst

theorem evolves_makeChain (q : Place) (paths : List Path) (d : Disk) :
    Evolves q d ((Program.makeChain paths).run d).2 :=
  relates_makeChain (.refl q) .trans (evolves_perform_makeFolder q) paths d

section Change

variable (path path' : Path) (bytes : Bytes) (d : Disk)

theorem change_write :
    d.change (.write path bytes) =
      (settle ((Program.makeFolders (path.parent?.getD ⟨[]⟩)).run d).2
        (((Program.makeFolders (path.parent?.getD ⟨[]⟩)).run d).2.write path bytes)).2 :=
  (settle_snd _ _).symm

theorem change_remove : d.change (.remove path) = (d.settle (d.removeTree path)).2 :=
  (settle_snd _ _).symm

theorem change_rename : d.change (.rename path path') = (d.settle (d.rename path path')).2 :=
  (settle_snd _ _).symm

theorem evolves_change_write (q : Place) : Evolves q d (d.change (.write path bytes)) := by
  rw [change_write]
  exact (evolves_makeChain q _ d).trans (evolves_settle fun _ h => evolves_write q h)

end Change

/-- The change keeps the symbolic links, gives no stamp by itself, and moves nothing to where the
folder at `q` lies. -/
def Change.Spares (c : Change) (q : Place) (d : Disk) : Prop :=
  SameLinks d (d.change c) ∧
    match c with
    | .write .. | .makeFolder _ | .remove _ => True
    | .rename _ path => ∀ r, d.resolve false path.trimSlashes = .ok r → ¬ r <:+ q
    | .link .. | .stamp .. => False

theorem evolves_change {c : Change} (h : c.Spares q d) : Evolves q d (d.change c) := by
  obtain ⟨hlinks, hkind⟩ := h
  cases c with
  | write path bytes => exact evolves_change_write path bytes d q
  | makeFolder path => exact evolves_makeChain q path.ancestors d
  | remove path =>
    rw [change_remove] at hlinks ⊢
    exact evolves_settle fun d' h => evolves_removeTree q h (by rwa [h] at hlinks)
  | rename path path' =>
    rw [change_rename] at hlinks ⊢
    exact evolves_settle fun d' h => evolves_rename h (by rwa [h] at hlinks) hkind
  | link | stamp => exact hkind.elim

theorem evolves_pass (hh : d'.here = d.here) (hn : d.now ≤ d'.now)
    (hg : ∀ p, d'.get? p = d.get? p) : Evolves q d d' where
  here := hh
  links p target := by rw [hg]
  now := hn
  sound hd :=
    ⟨hh ▸ hd.here, fun hx => hd.names (hg _ ▸ hx), fun hx => (hd.entries (hg _ ▸ hx)).mono hn⟩
  since := .of_same (hg q) fun _ => hg _

end MailMerge.Disk
