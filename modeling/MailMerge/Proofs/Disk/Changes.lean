import MailMerge.Disk.Outside
import MailMerge.Proofs.Disk.Leads

/-! # What changes do

What lies where after a change, and what is known when a request has changed the disk.
-/

namespace MailMerge

namespace Entry

variable {x : Entry} {s t : Moment}

@[simp] theorem isFile_withStamp : (x.withStamp t).isFile = x.isFile := by
  cases x <;> rfl

@[simp] theorem withStamp_eq_link_iff {target : Bytes} :
    x.withStamp t = .link target ↔ x = .link target := by
  cases x <;> simp [withStamp]

theorem eq_of_withStamp_eq_folder (h : x.withStamp t = .folder s) : t = s := by
  cases x with
  | folder => exact folder.inj h
  | file | link => simp [withStamp] at h

end Entry

namespace Disk

variable {d d' : Disk} {p q r : Place} {x : Entry} {t : Moment}

theorem get?_stampAt (d : Disk) (p : Place) (t : Moment) (r : Place) :
    (d.stampAt p t).get? r = if r = p then (d.get? p).map (Entry.withStamp t) else d.get? r := by
  unfold stampAt
  split
  · rename_i hnone
    split
    · subst r
      simp [hnone]
    · rfl
  · rename_i x hx
    simp [hx]

@[simp] theorem here_stampAt : (d.stampAt p t).here = d.here := by
  unfold stampAt
  split <;> rfl

@[simp] theorem now_stampAt : (d.stampAt p t).now = d.now := by
  unfold stampAt
  split <;> rfl

theorem get?_dropUnder (d : Disk) (p r : Place) :
    (d.dropUnder p).get? r = if p <:+ r then none else d.get? r := by
  rw [get?, dropUnder, Keyed.lookup_filter fun r => !p.isSuffixOf r]
  by_cases h : p <:+ r
  · have hb : p.isSuffixOf r = true := List.isSuffixOf_iff_suffix.mpr h
    simp [h, hb]
  · have hb : p.isSuffixOf r = false :=
      Bool.eq_false_iff.mpr fun hc => h (List.isSuffixOf_iff_suffix.mp hc)
    simp [h, hb, get?]

theorem isFolderAt_iff : d.isFolderAt p = true ↔ d.HasFolder p := by
  unfold isFolderAt HasFolder
  rcases d.get? p with _ | x
  · simp
  · cases x <;> simp [Entry.isFolder]

def bytesAt (d : Disk) (p : Place) : Option Bytes :=
  match d.get? p with
  | some (.file bytes _ _) => some bytes
  | _ => none

theorem bytesAt_congr {d d' : Disk} (h : d'.get? p = d.get? p) : d'.bytesAt p = d.bytesAt p := by
  rw [bytesAt, h, bytesAt]

theorem bytesAt_eq_some_iff {b : Bytes} :
    d.bytesAt p = some b ↔ ∃ m t, d.get? p = some (.file b m t) := by
  unfold bytesAt
  rcases d.get? p with _ | _ | _ | _ <;> simp

theorem bytesAt_put_file {b : Bytes} {m : Nat} :
    (d.put p (.file b m t)).bytesAt r = if r = p then some b else d.bytesAt r := by
  by_cases h : r = p
  · simp [bytesAt, h]
  · rw [if_neg h]
    exact bytesAt_congr (by rw [get?_put, if_neg h])

@[simp] theorem bytesAt_stampAt : (d.stampAt p t).bytesAt r = d.bytesAt r := by
  by_cases h : r = p
  · subst h
    rw [bytesAt, get?_stampAt, if_pos rfl, bytesAt]
    rcases d.get? r with _ | _ | _ | _ <;> rfl
  · exact bytesAt_congr (by rw [get?_stampAt, if_neg h])

section Folders

theorem hasFolder_stampAt (h : d.HasFolder r) (p : Place) (t : Moment) :
    (d.stampAt p t).HasFolder r := by
  obtain ⟨s, hs⟩ := h
  by_cases hr : r = p
  · exact ⟨t, by rw [get?_stampAt, if_pos hr, ← hr, hs]; rfl⟩
  · exact ⟨s, by rw [get?_stampAt, if_neg hr, hs]⟩

theorem hasFolder_of_stampAt (h : (d.stampAt p t).HasFolder r) : d.HasFolder r := by
  obtain ⟨s, hs⟩ := h
  rw [get?_stampAt] at hs
  split at hs
  · rename_i hr
    subst hr
    obtain ⟨x, hx, hxs⟩ := Option.map_eq_some_iff.mp hs
    cases x with
    | folder s' => exact ⟨s', hx⟩
    | file | link => simp [Entry.withStamp] at hxs
  · exact ⟨s, hs⟩

theorem hasFolder_put (hp : ¬ d.HasFolder p) (h : d.HasFolder r) : (d.put p x).HasFolder r := by
  have hne : r ≠ p := fun heq => hp (heq ▸ h)
  obtain ⟨s, hs⟩ := h
  exact ⟨s, by rw [get?_put, if_neg hne, hs]⟩

theorem hasFolder_drop (hp : ¬ d.HasFolder p) (h : d.HasFolder r) : (d.drop p).HasFolder r := by
  have hne : r ≠ p := fun heq => hp (heq ▸ h)
  obtain ⟨s, hs⟩ := h
  exact ⟨s, by rw [get?_drop, if_neg hne, hs]⟩

end Folders

section MoveTree

theorem get?_foldl_put (place : Place × Entry → Place) (hplace : ∀ e, q <:+ place e)
    (es : List (Place × Entry)) (d : Disk) (hr : ¬ q <:+ r) :
    (es.foldl (fun d' e => d'.put (place e) e.2) d).get? r = d.get? r := by
  induction es generalizing d with
  | nil => rfl
  | cons e es ih =>
    have hne : r ≠ place e := fun h => hr (h ▸ hplace e)
    rw [List.foldl_cons, ih, get?_put, if_neg hne]

theorem foldl_put_eq_some (place : Place × Entry → Place) (es : List (Place × Entry)) (d : Disk)
    (h : (es.foldl (fun d' e => d'.put (place e) e.2) d).get? r = some x) :
    d.get? r = some x ∨ ∃ e ∈ es, r = place e ∧ x = e.2 := by
  induction es generalizing d with
  | nil => exact .inl h
  | cons e es ih =>
    rcases ih _ h with hput | ⟨e', he', hr⟩
    · rw [get?_put] at hput
      split at hput
      · exact .inr ⟨e, List.mem_cons_self, ‹_›, (Option.some.inj hput).symm⟩
      · exact .inl hput
    · exact .inr ⟨e', List.mem_cons_of_mem _ he', hr⟩

theorem here_foldl_put (place : Place × Entry → Place) (es : List (Place × Entry)) (d : Disk) :
    (es.foldl (fun d' e => d'.put (place e) e.2) d).here = d.here ∧
      (es.foldl (fun d' e => d'.put (place e) e.2) d).now = d.now := by
  induction es generalizing d with
  | nil => exact ⟨rfl, rfl⟩
  | cons e es ih => exact ih _

/-- Moving a tree changes nothing outside it and outside the place that it moves to. -/
theorem get?_moveTree (d : Disk) (p : Place) (hr : ¬ q <:+ r) :
    (d.moveTree p q).get? r = if p <:+ r then none else d.get? r := by
  unfold moveTree
  rw [get?_foldl_put (fun e => e.1.take (e.1.length - p.length) ++ q)
    (fun e => List.suffix_append _ _) _ _ hr, get?_dropUnder, if_neg hr, get?_dropUnder]

theorem moveTree_eq_some (h : (d.moveTree p q).get? r = some x) :
    ∃ r', d.get? r' = some x ∧ ∀ n ∈ r, n ∈ r' ∨ n ∈ q := by
  unfold moveTree at h
  rcases foldl_put_eq_some (fun e => e.1.take (e.1.length - p.length) ++ q) _ _ h with
    h | ⟨e, he, hr, hx⟩
  · rw [get?_dropUnder, get?_dropUnder] at h
    split at h
    · simp at h
    · split at h
      · simp at h
      · exact ⟨r, h, fun n hn => .inl hn⟩
  · refine ⟨e.1, mem_entries_iff.mp (hx ▸ (List.mem_filter.mp he).1), fun n hn => ?_⟩
    rw [hr, List.mem_append] at hn
    exact hn.imp_left List.mem_of_mem_take

theorem here_moveTree : (d.moveTree p q).here = d.here := (here_foldl_put _ _ _).1

theorem now_moveTree : (d.moveTree p q).now = d.now := (here_foldl_put _ _ _).2

end MoveTree

section Requests

variable {path path' : Path} {bytes : Bytes}

theorem ok_bind {α β : Type} (a : α) (f : α → Except Fault β) : (Except.ok a >>= f) = f a := rfl

theorem throw_bind {α β : Type} (e : Fault) (f : α → Except Fault β) :
    ((throw e : Except Fault α) >>= f) = .error e := rfl

theorem throw_ne_ok {α : Type} (e : Fault) (a : α) : (throw e : Except Fault α) ≠ .ok a := nofun

theorem exists_of_bind_eq_ok {ε α β : Type} {m : Except ε α} {f : α → Except ε β} {b : β}
    (h : m >>= f = .ok b) : ∃ a, m = .ok a ∧ f a = .ok b := by
  cases m with
  | error e => exact nomatch h
  | ok a => exact ⟨a, rfl, h⟩

theorem cases_of_bind_eq_error {ε α β : Type} {m : Except ε α} {f : α → Except ε β} {e : ε}
    (h : m >>= f = .error e) : m = .error e ∨ ∃ a, m = .ok a ∧ f a = .error e := by
  cases m with
  | error e' => exact .inl (congrArg Except.error (Except.error.inj h))
  | ok a => exact .inr ⟨a, rfl, h⟩

theorem write_eq_ok (h : d.write path bytes = .ok d') :
    ∃ r, d.resolve true path.trimSlashes = .ok r ∧
      ((∃ b m t, d.get? r = some (.file b m t) ∧
          d' = d.tick.put r (.file bytes m d.tick.now)) ∨
        (d.get? r = none ∧
          d' = (d.tick.put r (.file bytes freshMode d.tick.now)).stampAt r.tail d.tick.now)) := by
  obtain ⟨r, hr, h⟩ := exists_of_bind_eq_ok h
  refine ⟨r, hr, ?_⟩
  simp only [throw_bind] at h
  split at h
  · simp at h
  · split at h
    · rename_i b m t hget
      exact .inl ⟨b, m, t, hget, (Except.ok.inj h).symm⟩
    · exact absurd h (throw_ne_ok _ _)
    · rename_i hget
      exact .inr ⟨hget, (Except.ok.inj h).symm⟩

theorem write_succeeds (hr : d.resolve true path.trimSlashes = .ok r)
    (hslash : path.endsInSlash = false) (hx : ∀ x, d.get? r = some x → x.isFile = true) :
    ∃ d', d.write path bytes = .ok d' := by
  unfold write
  rw [hr, ok_bind, hslash]
  rcases hget : d.get? r with _ | _ | _ | _
  · exact ⟨_, rfl⟩
  · exact ⟨_, rfl⟩
  · exact absurd (hx _ hget) (by simp [Entry.isFile])
  · exact absurd (hx _ hget) (by simp [Entry.isFile])

theorem remove_succeeds {b : Bytes} {m : Nat} (hr : d.resolve false path.trimSlashes = .ok r)
    (hslash : path.endsInSlash = false) (hdots : path.endsInDots = false)
    (hx : d.get? r = some (.file b m t)) : ∃ d', d.remove path = .ok d' := by
  unfold remove
  rw [hr, ok_bind, hslash, hdots]
  simp only [hx]
  exact ⟨_, rfl⟩

theorem remove_eq_ok (h : d.remove path = .ok d') :
    ∃ r x, d.resolve false path.trimSlashes = .ok r ∧ d.get? r = some x ∧ x.isFolder = false ∧
      d' = (d.tick.drop r).stampAt r.tail d.tick.now := by
  obtain ⟨r, hr, h⟩ := exists_of_bind_eq_ok h
  simp only [throw_bind] at h
  split at h
  · simp at h
  · split at h
    · exact absurd h (throw_ne_ok _ _)
    · exact absurd h (throw_ne_ok _ _)
    · rename_i x hfolder hx
      split at h
      · simp at h
      · refine ⟨r, x, hr, hx, ?_, (Except.ok.inj h).symm⟩
        cases x with
        | folder t => exact absurd rfl (hfolder t)
        | file | link => rfl

theorem makeFolder_eq_ok (h : d.makeFolder path = .ok d') :
    ∃ r, d.resolve false path.trimSlashes = .ok r ∧ d.get? r = none ∧
      d' = (d.tick.put r (.folder d.tick.now)).stampAt r.tail d.tick.now := by
  obtain ⟨r, hr, h⟩ := exists_of_bind_eq_ok h
  split at h
  · exact absurd h (throw_ne_ok _ _)
  · rename_i hnone
    exact ⟨r, hr, hnone, (Except.ok.inj h).symm⟩

theorem removeTree_eq_ok (h : d.removeTree path = .ok d') :
    (∃ r, d.resolve false path.trimSlashes = .ok r ∧ d.HasFolder r ∧
      d' = (d.tick.dropUnder r).stampAt r.tail d.tick.now) ∨ d.remove path = .ok d' := by
  obtain ⟨r, hr, h⟩ := exists_of_bind_eq_ok h
  split at h
  · rename_i hfolder
    exact .inl ⟨r, hr, isFolderAt_iff.mp hfolder, (Except.ok.inj h).symm⟩
  · exact .inr h

def moved (d : Disk) (p q : Place) (x : Entry) : Disk :=
  ((if x.isFolder then d.tick.moveTree p q else (d.tick.drop p).put q x).stampAt p.tail
    d.tick.now).stampAt q.tail d.tick.now

theorem rename_eq_ok (h : d.rename path path' = .ok d') :
    ∃ p q x, d.resolve false path.trimSlashes = .ok p ∧ d.resolve false path'.trimSlashes = .ok q ∧
      d.get? p = some x ∧ (p = q ∧ d' = d ∨
        p ≠ q ∧ (x.isFolder = false → ¬ d.HasFolder q) ∧ d' = d.moved p q x) := by
  obtain ⟨p, hp, h⟩ := exists_of_bind_eq_ok h
  obtain ⟨q, hq, h⟩ := exists_of_bind_eq_ok h
  simp only [throw_bind] at h
  split at h
  · simp at h
  split at h
  · exact absurd h (throw_ne_ok _ _)
  · rename_i x hx
    refine ⟨p, q, x, hp, hq, hx, ?_⟩
    split at h
    · simp at h
    split at h
    · exact .inl ⟨‹p = q›, (Except.ok.inj h).symm⟩
    · rename_i hne
      refine .inr ⟨hne, ?_⟩
      split at h
      · simp at h
      split at h
      · rename_i t hy
        split at h
        · simp at h
        · rename_i hfolder
          split at h
          · simp at h
          · refine ⟨fun hx => ?_, (Except.ok.inj h).symm⟩
            simp [hx] at hfolder
      · rename_i y hfolder hy
        split at h
        · simp at h
        · rename_i hx
          refine ⟨?_, ?_⟩
          · rintro - ⟨t, ht⟩
            rw [ht] at hy
            exact hfolder t (Option.some.inj hy).symm
          · rw [moved, if_neg hx]
            exact (Except.ok.inj h).symm
      · rename_i hy
        exact ⟨fun _ ⟨t, ht⟩ => by simp [hy] at ht, (Except.ok.inj h).symm⟩

end Requests

end Disk

end MailMerge
