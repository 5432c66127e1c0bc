import MailMerge.Keyed
import MailMerge.Text.Utf8

/-! # Disk

A disk is a finite map from places to files, folders and symbolic links. Every change takes the
next moment of the disk's own clock and stamps what it changes: a file when its content changes,
a folder when a name in it appears or goes.
-/

namespace MailMerge

/-- Where something lies on the disk: the names on the way to it, innermost first. The root is
`[]`, and the folder that holds `n :: p` is `p`. -/
abbrev Place := List Bytes

/-- A moment. Only the order of moments matters. -/
abbrev Moment := Int

inductive Entry
  | file (bytes : Bytes) (mode : Nat) (stamp : Moment)
  | folder (stamp : Moment)
  | link (target : Bytes)
  deriving DecidableEq, Repr

namespace Entry

def isFile : Entry → Bool
  | file .. => true
  | _ => false

def isFolder : Entry → Bool
  | folder _ => true
  | _ => false

/-- The time of the last change; a link keeps none. -/
def stamp : Entry → Moment
  | file _ _ t => t
  | folder t => t
  | link _ => 0

def withStamp (t : Moment) : Entry → Entry
  | file b m _ => file b m t
  | folder _ => folder t
  | link target => link target

end Entry

/-- The whole file tree, together with the folder that relative paths start from. -/
structure Disk where
  entries : List (Place × Entry)
  here : Place
  now : Moment
  distinct : (entries.map Prod.fst).Nodup

namespace Disk

variable (d : Disk)

def get? (p : Place) : Option Entry := d.entries.lookup p

def isFolderAt (p : Place) : Bool := (d.get? p).any Entry.isFolder

/-- The names in the folder at `p`, in no particular order, each with what it names. -/
def children (p : Place) : List (Bytes × Entry) :=
  d.entries.filterMap fun e =>
    match e with
    | (n :: q, x) => if q = p then some (n, x) else none
    | ([], _) => none

def tick : Disk := { d with now := d.now + 1 }

/-- Nothing at `p` any more; what lies below `p` is not touched. -/
def drop (p : Place) : Disk where
  entries := d.entries.filter fun e => e.1 ≠ p
  here := d.here
  now := d.now
  distinct := d.distinct.sublist (List.filter_sublist.map _)

def dropUnder (p : Place) : Disk where
  entries := d.entries.filter fun e => !p.isSuffixOf e.1
  here := d.here
  now := d.now
  distinct := d.distinct.sublist (List.filter_sublist.map _)

def put (p : Place) (x : Entry) : Disk where
  entries := (p, x) :: (d.drop p).entries
  here := d.here
  now := d.now
  distinct := by
    refine List.nodup_cons.mpr ⟨?_, (d.drop p).distinct⟩
    simp [drop]

def stampAt (p : Place) (t : Moment) : Disk :=
  match d.get? p with
  | none => d
  | some x => d.put p (x.withStamp t)

def empty : Disk where
  entries := [([], .folder 0)]
  here := []
  now := 1000000000
  distinct := by decide

variable {d}

@[simp] theorem get?_drop (p q : Place) :
    (d.drop p).get? q = if q = p then none else d.get? q :=
  Keyed.lookup_filter_ne d.entries p q

@[simp] theorem get?_put (p q : Place) (x : Entry) :
    (d.put p x).get? q = if q = p then some x else d.get? q := by
  have hd := get?_drop (d := d) p q
  by_cases h : q = p
  · simp [get?, put, h]
  · have hb : (q == p) = false := by simpa using h
    simp only [h, if_false] at hd
    simpa [get?, put, List.lookup_cons, hb, h] using hd

@[simp] theorem get?_tick (p : Place) : d.tick.get? p = d.get? p := rfl

theorem mem_entries_iff {p : Place} {x : Entry} :
    (p, x) ∈ d.entries ↔ d.get? p = some x :=
  Keyed.mem_iff_lookup d.distinct

theorem mem_children_iff {p : Place} {n : Bytes} {x : Entry} :
    (n, x) ∈ d.children p ↔ d.get? (n :: p) = some x := by
  rw [← mem_entries_iff, children, List.mem_filterMap]
  constructor
  · rintro ⟨⟨q, y⟩, hmem, hq⟩
    cases q with
    | nil => simp at hq
    | cons m q =>
      by_cases h : q = p
      · simp only [h, if_true, Option.some.injEq, Prod.mk.injEq] at hq
        obtain ⟨rfl, rfl⟩ := hq
        exact h ▸ hmem
      · simp [h] at hq
  · intro h
    exact ⟨_, h, by simp⟩

end Disk

end MailMerge
