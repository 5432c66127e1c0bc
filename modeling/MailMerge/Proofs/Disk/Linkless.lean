import MailMerge.Proofs.Disk.Untouched

/-! # Disks without symbolic links

Where a path leads to on a disk without symbolic links does not depend on whether links would be
followed. What changes files there keeps every folder, so a path to a folder goes on to lead to it.
-/

namespace MailMerge.Disk

variable {d d' : Disk} {p q r : Place} {path path' : Path} {bytes : Bytes} {follow follow' : Bool}

def Linkless (d : Disk) : Prop := ∀ p, d.NoLink p

namespace Linkless

theorem sameLinks (h : d.Linkless) (h' : d'.Linkless) : SameLinks d d' := fun p target =>
  ⟨fun hx => absurd hx (h' p target), fun hx => absurd hx (h p target)⟩

theorem walks (h : d.Linkless) {k : Nat} {names : List Bytes} (hw : Walks d follow k names p r) :
    Walks d follow' k names p r := by
  induction hw with
  | stop => exact .stop
  | stay hp hm _ ih => exact .stay hp hm ih
  | up hp _ ih => exact .up hp ih
  | missing hp hm hx => exact .missing hp hm hx
  | keep _ _ hx => exact absurd hx (h _ _)
  | link _ _ hx => exact absurd hx (h _ _)
  | enter hp hm hx hl _ ih => exact .enter hp hm hx hl ih

theorem resolve (h : d.Linkless) (hr : d.resolve follow path = .ok r) :
    d.resolve follow' path = .ok r := by
  obtain ⟨hzero, hnil, hlen, hw⟩ := resolve_eq_ok_iff.mp hr
  exact resolve_eq_ok_iff.mpr ⟨hzero, hnil, hlen, h.walks hw⟩

theorem tick (h : d.Linkless) : d.tick.Linkless := h

theorem put (h : d.Linkless) {x : Entry} (hx : ∀ target, x ≠ .link target) :
    (d.put p x).Linkless := by
  intro r target
  rw [get?_put]
  split
  · exact fun heq => hx target (Option.some.inj heq)
  · exact h r target

theorem drop (h : d.Linkless) : (d.drop p).Linkless :=
  fun r _ hx => h r _ (get?_of_get?_drop hx)

theorem stampAt (h : d.Linkless) (p : Place) (t : Moment) : (d.stampAt p t).Linkless := by
  intro r target
  rw [get?_stampAt]
  split
  · intro hx
    obtain ⟨x, hx, heq⟩ := Option.map_eq_some_iff.mp hx
    exact h p target (hx.trans (congrArg some (Entry.withStamp_eq_link_iff.mp heq)))
  · exact h r target

end Linkless

/-- The path leads to a folder on a disk without symbolic links. -/
structure LinklessFolder (path : Path) (d : Disk) (q : Place) : Prop where
  linkless : d.Linkless
  leads : d.resolve true path = .ok q
  folder : d.HasFolder q

namespace LinklessFolder

theorem of_change (h : LinklessFolder path d q) (hh : d'.here = d.here) (hd : d'.Linkless)
    (hfolders : ∀ r, d.HasFolder r → d'.HasFolder r) : LinklessFolder path d' q where
  linkless := hd
  leads := resolve_mono (h.linkless.sameLinks hd) hh hfolders h.leads h.folder
  folder := hfolders q h.folder

theorem write (h : LinklessFolder path d q) (hwrite : d.write path' bytes = .ok d') :
    LinklessFolder path d' q ∧ ∃ r m t, d.resolve true path'.trimSlashes = .ok r ∧
      d'.get? r = some (.file bytes m t) := by
  obtain ⟨r, hr, ⟨b, m, t, hx, rfl⟩ | ⟨hx, rfl⟩⟩ := write_eq_ok hwrite
  · have hfolder : ¬ d.tick.HasFolder r := not_hasFolder_of_get?_eq_some hx rfl
    refine ⟨h.of_change rfl (h.linkless.tick.put nofun) fun r' hr' => hasFolder_put hfolder hr',
      r, m, d.tick.now, hr, ?_⟩
    rw [get?_put, if_pos rfl]
  · have hfolder : ¬ d.tick.HasFolder r := not_hasFolder_of_get?_eq_none hx
    have hlinks : (d.tick.put r (.file bytes freshMode d.tick.now)).Linkless :=
      h.linkless.tick.put nofun
    refine ⟨h.of_change here_stampAt (hlinks.stampAt _ _) fun r' hr' =>
      hasFolder_stampAt (hasFolder_put hfolder hr') _ _, r, freshMode, d.tick.now, hr, ?_⟩
    rw [get?_stampAt]
    split
    · rename_i heq
      rw [← heq, get?_put, if_pos rfl]
      rfl
    · rw [get?_put, if_pos rfl]

theorem write_rename {d₁ : Disk} {draft file : Path} (h : LinklessFolder path d q)
    (hwrite : d.write draft bytes = .ok d₁) (hrename : d₁.rename draft file = .ok d') :
    LinklessFolder path d' q := by
  obtain ⟨h₁, r, m, t, hr, hx⟩ := h.write hwrite
  obtain ⟨a, b, x, ha, -, hxa, ⟨-, rfl⟩ | ⟨-, hfree, rfl⟩⟩ := rename_eq_ok hrename
  · exact h₁
  · have hhere : d₁.here = d.here := by
      obtain ⟨r, -, ⟨b, m, t, -, rfl⟩ | ⟨-, rfl⟩⟩ := write_eq_ok hwrite
      · rfl
      · exact here_stampAt
    obtain rfl : r = a :=
      resolve_unique (h.linkless.sameLinks h₁.linkless) hhere hr (h₁.linkless.resolve ha)
    obtain rfl := Option.some.inj (hx.symm.trans hxa)
    have hfrom : ¬ d₁.tick.HasFolder r := not_hasFolder_of_get?_eq_some hx rfl
    have hto : ¬ (d₁.tick.drop r).HasFolder b := by
      rintro ⟨t', ht'⟩
      exact hfree rfl ⟨t', get?_of_get?_drop ht'⟩
    have hput : ((d₁.tick.drop r).put b (.file bytes m t)).Linkless :=
      h₁.linkless.tick.drop.put nofun
    have hlinks : (d₁.moved r b (.file bytes m t)).Linkless := (hput.stampAt _ _).stampAt _ _
    refine h₁.of_change here_moved hlinks fun r' hr' => ?_
    exact hasFolder_stampAt (hasFolder_stampAt (hasFolder_put hto (hasFolder_drop hfrom hr')) _ _)
      _ _

theorem remove (h : LinklessFolder path d q) (hremove : d.remove path' = .ok d') :
    LinklessFolder path d' q := by
  obtain ⟨r, x, -, hx, hfolder, rfl⟩ := remove_eq_ok hremove
  have hfree : ¬ d.tick.HasFolder r := not_hasFolder_of_get?_eq_some hx hfolder
  exact h.of_change here_stampAt (h.linkless.tick.drop.stampAt _ _) fun r' hr' =>
    hasFolder_stampAt (hasFolder_drop hfree hr') _ _

end LinklessFolder

end MailMerge.Disk
