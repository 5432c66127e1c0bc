import MailMerge.Proofs.Disk.PlainFolder

/-! # A disk without one file

Two disks that differ in one file only. A request for another name of the same folder has the same
outcome on both, and afterwards they differ in that file only.
-/

namespace MailMerge.Disk

variable {d d' : Disk} {p q u : Place} {n m : Bytes} {path : Path} {b : Bytes} {mode : Nat}
  {t : Moment} {x : Entry}

/-- The second disk is the first without what lies at `u`. -/
structure Without (u : Place) (d d' : Disk) : Prop where
  here : d'.here = d.here
  now : d'.now = d.now
  entries : ∀ p, d'.get? p = if p = u then none else d.get? p

theorem without_drop (u : Place) (d : Disk) : Without u d (d.drop u) := ⟨rfl, rfl, get?_drop u⟩

/-- A change has failed for the same reason on both disks, or has left such disks again. -/
inductive Alike (u : Place) : Except Fault Disk → Except Fault Disk → Prop
  | error (fault : Fault) : Alike u (.error fault) (.error fault)
  | ok {d d' : Disk} (h : Without u d d') : Alike u (.ok d) (.ok d')

namespace Without

theorem get?_of_ne (h : Without u d d') (hp : p ≠ u) : d'.get? p = d.get? p := by
  rw [h.entries, if_neg hp]

theorem bytesAt_of_ne (h : Without u d d') (hp : p ≠ u) : d'.bytesAt p = d.bytesAt p :=
  bytesAt_congr (h.get?_of_ne hp)

theorem bytesAt_self (h : Without u d d') : d'.bytesAt u = none := by
  simp [bytesAt, h.entries]

theorem tick (h : Without u d d') : Without u d.tick d'.tick :=
  ⟨h.here, congrArg (· + 1) h.now, h.entries⟩

theorem put (h : Without u d d') (hp : p ≠ u) : Without u (d.put p x) (d'.put p x) := by
  refine ⟨h.here, h.now, fun r => ?_⟩
  rw [get?_put, get?_put, h.entries]
  by_cases hr : r = p
  · simp [hr, hp]
  · simp [hr]

theorem drop (h : Without u d d') : Without u (d.drop p) (d'.drop p) := by
  refine ⟨h.here, h.now, fun r => ?_⟩
  rw [get?_drop, get?_drop, h.entries]
  by_cases hr : r = p
  · simp [hr]
  · simp [hr]

theorem stampAt (h : Without u d d') (hp : p ≠ u) : Without u (d.stampAt p t) (d'.stampAt p t) := by
  refine ⟨?_, ?_, fun r => ?_⟩
  · rw [here_stampAt, here_stampAt, h.here]
  · rw [now_stampAt, now_stampAt, h.now]
  · rw [get?_stampAt, get?_stampAt, h.get?_of_ne hp, h.entries r]
    by_cases hr : r = p
    · simp [hr, hp]
    · simp [hr]

theorem plainFolder (h : Without (m :: q) d d') (hf : PlainFolder path d q)
    (hm : d.get? (m :: q) = some (.file b mode t)) : PlainFolder path d' q where
  leads := by
    refine resolve_of_missing_none (fun p target hp => ?_) h.here (fun p hp => ?_) hf.leads
      hf.folder
    · rw [h.get?_of_ne, hp]
      rintro rfl
      simp [hm] at hp
    · obtain ⟨s, hs⟩ := hp
      refine ⟨s, ?_⟩
      rw [h.get?_of_ne, hs]
      rintro rfl
      simp [hm] at hs
  folder := by
    obtain ⟨s, hs⟩ := hf.folder
    exact ⟨s, (h.get?_of_ne (List.cons_ne_self m q).symm).trans hs⟩
  names f x hx := by
    rw [h.entries] at hx
    split at hx
    · simp at hx
    · exact hf.names f x hx
  no_link f target hx := by
    rw [h.entries] at hx
    split at hx
    · simp at hx
    · exact hf.no_link f target hx

section Requests

variable (hf : PlainFolder path d q) (hf' : PlainFolder path d' q) (h : Without (m :: q) d d')
  (hn : IsStep n) (hne : n ≠ m)

include hf hf' h hn hne

theorem write (b : Bytes) :
    Alike (m :: q) (d.write (path.join ⟨n⟩) b) (d'.write (path.join ⟨n⟩) b) := by
  have hplace : n :: q ≠ m :: q := fun heq => hne (List.cons.inj heq).1
  have hfolder : q ≠ m :: q := (List.cons_ne_self m q).symm
  by_cases hroom : HasRoom path n
  · unfold Disk.write
    rw [hf.resolve_child hroom, hf'.resolve_child hroom, ok_bind, ok_bind,
      Path.endsInSlash_join hn (bytes_ne_nil hf.leads), h.get?_of_ne hplace, h.tick.now]
    rcases d.get? (n :: q) with _ | _ | _ | _
    · exact .ok ((h.tick.put hplace).stampAt hfolder)
    · exact .ok (h.tick.put hplace)
    · exact .error _
    · exact .error _
  · unfold Disk.write
    rw [hf.resolve_child_error hn hroom, hf'.resolve_child_error hn hroom]
    exact .error _

theorem remove :
    Alike (m :: q) (d.remove (path.join ⟨n⟩)) (d'.remove (path.join ⟨n⟩)) := by
  have hplace : n :: q ≠ m :: q := fun heq => hne (List.cons.inj heq).1
  have hfolder : q ≠ m :: q := (List.cons_ne_self m q).symm
  have hnil := bytes_ne_nil hf.leads
  by_cases hroom : HasRoom path n
  · unfold Disk.remove
    rw [hf.resolve_child hroom, hf'.resolve_child hroom, ok_bind, ok_bind,
      Path.endsInSlash_join hn hnil, Path.endsInDots_join hn hnil, h.get?_of_ne hplace, h.tick.now]
    rcases d.get? (n :: q) with _ | _ | _ | _
    · exact .error _
    · exact .ok (h.tick.drop.stampAt hfolder)
    · exact .error _
    · exact .ok (h.tick.drop.stampAt hfolder)
  · unfold Disk.remove
    rw [hf.resolve_child_error hn hroom, hf'.resolve_child_error hn hroom]
    exact .error _

theorem rename {n' : Bytes} (hn' : IsStep n') (hne' : n' ≠ m) (hnn' : n ≠ n')
    (hx : d.get? (n :: q) = some (.file b mode t)) :
    Alike (m :: q) (d.rename (path.join ⟨n⟩) (path.join ⟨n'⟩))
      (d'.rename (path.join ⟨n⟩) (path.join ⟨n'⟩)) := by
  have hplace : n :: q ≠ m :: q := fun heq => hne (List.cons.inj heq).1
  have hplace' : n' :: q ≠ m :: q := fun heq => hne' (List.cons.inj heq).1
  have hfolder : q ≠ m :: q := (List.cons_ne_self m q).symm
  have hx' := (h.get?_of_ne hplace).trans hx
  have hy' := h.get?_of_ne hplace'
  by_cases hroom : HasRoom path n
  · by_cases hroom' : HasRoom path n'
    · rw [hf.rename_eq hroom hroom' hnn' hx, hf'.rename_eq hroom hroom' hnn' hx', isFolderAt,
        isFolderAt, hy']
      cases (d.get? (n' :: q)).any Entry.isFolder with
      | true => exact .error _
      | false =>
        refine .ok ?_
        simp only [moved, Entry.isFolder, Bool.false_eq_true, if_false, h.tick.now]
        exact ((h.tick.drop.put hplace').stampAt hfolder).stampAt hfolder
    · unfold Disk.rename
      rw [hf.resolve_child hroom, hf'.resolve_child hroom, ok_bind, ok_bind,
        hf.resolve_child_error hn' hroom', hf'.resolve_child_error hn' hroom']
      exact .error _
  · unfold Disk.rename
    rw [hf.resolve_child_error hn hroom, hf'.resolve_child_error hn hroom]
    exact .error _

end Requests

end Without

end MailMerge.Disk
