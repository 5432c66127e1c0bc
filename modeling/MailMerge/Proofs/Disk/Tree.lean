import MailMerge.Proofs.Disk.PlainFolder

/-! # Trees without symbolic links

A folder together with everything below it. What lies there lies in a folder, so where a folder is
missing nothing is hidden at the places below it, and a folder that is made is empty.
-/

namespace MailMerge.Disk

variable {d d' : Disk} {p q : Place} {n m : Bytes} {path : Path} {A : Bytes → Prop}

/-- The path leads to a folder at `q`. What lies below it lies in a folder, has a name that a disk
allows, and is no symbolic link. -/
structure PlainTree (path : Path) (d : Disk) (q : Place) : Prop where
  leads : d.resolve true path = .ok q
  folder : d.HasFolder q
  parents : ∀ n p x, q <:+ p → d.get? (n :: p) = some x → IsName n ∧ d.HasFolder p
  no_link : ∀ p, q <:+ p → d.NoLink p

namespace PlainTree

theorem plainFolder (h : PlainTree path d q) : PlainFolder path d q where
  leads := h.leads
  folder := h.folder
  names f x hx := (h.parents f q x (List.suffix_refl q) hx).1
  no_link f := h.no_link (f :: q) (List.suffix_cons f q)

theorem child (h : PlainTree path d q) (hn : HasRoom path n) (hfolder : d.HasFolder (n :: q)) :
    PlainTree (path.join ⟨n⟩) d (n :: q) where
  leads := resolve_join h.leads h.folder hn.name hn.length_lt (.inr (h.plainFolder.no_link n))
  folder := hfolder
  parents m p x hp hx := h.parents m p x ((List.suffix_cons n q).trans hp) hx
  no_link p hp := h.no_link p ((List.suffix_cons n q).trans hp)

theorem of_changesOnly (h : PlainTree path d q) (hp : q <:+ p) (hfolder : d.HasFolder p)
    (hc : ChangesOnly p A d d') : PlainTree path d' q where
  leads := resolve_mono hc.links hc.here hc.folders h.leads h.folder
  folder := hc.folders q h.folder
  parents m r x hr hx := by
    have hbefore {y : Entry} (hy : d.get? (m :: r) = some y) : IsName m ∧ d'.HasFolder r := by
      obtain ⟨hname, hparent⟩ := h.parents m r y hr hy
      exact ⟨hname, hc.folders r hparent⟩
    by_cases hchild : r = p
    · subst hchild
      rcases hc.names m x hx with hname | ⟨y, hy⟩
      · exact ⟨hname, hc.folders r hfolder⟩
      · exact hbefore hy
    · by_cases hself : m :: r = p
      · obtain ⟨t, ht⟩ := hfolder
        exact hbefore (hself ▸ ht)
      · rw [hc.others _ hself fun f _ heq => hchild (List.cons.inj heq).2] at hx
        exact hbefore hx
  no_link r hr := hc.links.noLink_iff.mpr (h.no_link r hr)

end PlainTree

section Looking

theorem PlainFolder.leads_child (h : PlainFolder path d q) (hn : HasRoom path n) :
    d.resolve true (path.join ⟨n⟩) = .ok (n :: q) :=
  resolve_join h.leads h.folder hn.name hn.length_lt (.inr (h.no_link n))

theorem PlainFolder.entryAt_child (h : PlainFolder path d q) (hn : HasRoom path n) :
    (d.entryAt (path.join ⟨n⟩)).toOption = d.get? (n :: q) := by
  rw [entryAt, h.leads_child hn, ok_bind]
  cases d.get? (n :: q) <;> rfl

theorem join_ne_nil (hnil : path.bytes ≠ []) (hn : IsStep n) : (path.join ⟨n⟩).bytes ≠ [] :=
  List.ne_nil_of_length_pos (Nat.lt_of_le_of_lt (Nat.zero_le _)
    (Path.length_lt_length_join hn hnil))

theorem HasRoom.above (hnil : path.bytes ≠ []) (hn : IsName n) (hm : HasRoom (path.join ⟨n⟩) m) :
    HasRoom path n where
  name := hn
  length_lt := Nat.lt_trans
    (Path.length_lt_length_join hm.name.toIsStep (join_ne_nil hnil hn.toIsStep)) hm.length_lt

theorem PlainTree.entryAt_grandchild (h : PlainTree path d q) (hn : IsName n)
    (hm : HasRoom (path.join ⟨n⟩) m) :
    (d.entryAt ((path.join ⟨n⟩).join ⟨m⟩)).toOption = d.get? (m :: n :: q) := by
  have hnil : path.bytes ≠ [] := bytes_ne_nil h.leads
  have hroom : HasRoom path n := hm.above hnil hn
  by_cases hfolder : d.HasFolder (n :: q)
  · exact (h.child hroom hfolder).plainFolder.entryAt_child hm
  · have hnone : d.get? (m :: n :: q) = none := by
      cases hx : d.get? (m :: n :: q) with
      | none => rfl
      | some x => exact absurd (h.parents m _ x (List.suffix_cons n q) hx).2 hfolder
    rw [hnone, entryAt]
    cases hr : d.resolve true ((path.join ⟨n⟩).join ⟨m⟩) with
    | error fault => rfl
    | ok r =>
      obtain ⟨q', hq', hleads, -⟩ :=
        resolve_of_join hm.name.toIsStep (join_ne_nil hnil hn.toIsStep) hr
      obtain rfl := Except.ok.inj (hleads.symm.trans (h.plainFolder.leads_child hroom))
      exact absurd hq' hfolder

theorem entryAt_of_no_room (hn : IsName n) (hroom : ¬ HasRoom path n) :
    (d.entryAt (path.join ⟨n⟩)).toOption = none := by
  rw [entryAt]
  cases hr : d.resolve true (path.join ⟨n⟩) with
  | error fault => rfl
  | ok r => exact absurd ⟨hn, (resolve_eq_ok_iff.mp hr).2.2.1⟩ hroom

end Looking

section Making

theorem exists_ancestors {p : Path} (hp : p.bytes ≠ []) : ∃ above, p.ancestors = p :: above := by
  obtain ⟨k, hk⟩ : ∃ k, p.bytes.length = k + 1 :=
    ⟨p.bytes.length - 1, (Nat.succ_pred_eq_of_pos (List.length_pos_iff.mpr hp)).symm⟩
  rw [Path.ancestors, if_neg hp, hk, Path.ancestorsFrom]
  split
  · split
    · exact ⟨_, rfl⟩
    · exact ⟨_, rfl⟩
  · exact ⟨_, rfl⟩

/-- A name that a folder could take is not missing there: it is free, or not, or no name at all. -/
theorem PlainFolder.makeFolder_ne_notFound (h : PlainFolder path d q) (hn : IsStep n) :
    d.makeFolder (path.join ⟨n⟩) ≠ .error .notFound := by
  intro hnot
  rw [Disk.makeFolder] at hnot
  by_cases hroom : HasRoom path n
  · rw [h.resolve_child hroom, ok_bind] at hnot
    cases hx : d.get? (n :: q) with
    | none | some =>
      rw [hx] at hnot
      cases hnot
  · rw [h.resolve_child_error hn hroom, roomFault] at hnot
    split at hnot <;> cases hnot

theorem unlessFolder_cases {fault : Fault} {r : Except Fault Unit}
    (hrun : (Program.unlessFolder path fault).run d = (r, d')) :
    d' = d ∧ (r = .error fault ∨
      r = .ok () ∧ ∃ p, d.resolve true path = .ok p ∧ d.HasFolder p) := by
  have hd : d' = d := by
    rw [← run_unlessFolder path fault d, hrun]
  refine ⟨hd, ?_⟩
  rw [Program.unlessFolder, Program.run_bind, Program.isFolder, Program.run_bind,
    Program.run_perform, perform, look, entryAt] at hrun
  cases hresolve : d.resolve true path with
  | error e =>
    rw [hresolve] at hrun
    exact .inl (Prod.mk.inj hrun).1.symm
  | ok p =>
    rw [hresolve, ok_bind] at hrun
    cases hx : d.get? p with
    | none =>
      rw [hx] at hrun
      exact .inl (Prod.mk.inj hrun).1.symm
    | some x =>
      rw [hx] at hrun
      cases x with
      | folder t => exact .inr ⟨(Prod.mk.inj hrun).1.symm, p, rfl, t, hx⟩
      | file | link => exact .inl (Prod.mk.inj hrun).1.symm

/-- A folder with this name is there already, or it is made. Where neither is possible nothing
changes. -/
theorem PlainFolder.makeFolders_cases (h : PlainFolder path d q) (hn : IsStep n)
    {r : Except Fault Unit} (hrun : (Program.makeFolders (path.join ⟨n⟩)).run d = (r, d')) :
    (∃ fault, r = .error fault) ∧ d' = d ∨
      r = .ok () ∧ d' = d ∧ HasRoom path n ∧ d.HasFolder (n :: q) ∨
      r = .ok () ∧ d.makeFolder (path.join ⟨n⟩) = .ok d' := by
  have hnil : path.bytes ≠ [] := bytes_ne_nil h.leads
  obtain ⟨above, habove⟩ := exists_ancestors (join_ne_nil hnil hn)
  have hperform : d.perform (.makeFolder (path.join ⟨n⟩)) =
      d.settle (d.makeFolder (path.join ⟨n⟩)) := rfl
  rw [Program.makeFolders, habove, Program.makeChain, Program.run_bind, Program.run_perform,
    hperform] at hrun
  cases hmake : d.makeFolder (path.join ⟨n⟩) with
  | ok d₁ =>
    rw [hmake] at hrun
    obtain ⟨rfl, rfl⟩ := Prod.mk.inj hrun
    exact .inr (.inr ⟨rfl, rfl⟩)
  | error fault =>
    have hunless : (Program.unlessFolder (path.join ⟨n⟩) fault).run d = (r, d') := by
      have hne := h.makeFolder_ne_notFound hn
      rw [hmake] at hrun hne
      cases fault <;> first | exact absurd rfl hne | exact hrun
    obtain ⟨rfl, rfl | ⟨rfl, p, hp, hfolder⟩⟩ := unlessFolder_cases hunless
    · exact .inl ⟨⟨fault, rfl⟩, rfl⟩
    · rw [← Path.trimSlashes_join hn hnil] at hp
      obtain ⟨hroom, rfl⟩ := h.of_resolve_child hn hp
      exact .inr (.inl ⟨rfl, rfl, hroom, hfolder⟩)

end Making

end MailMerge.Disk
