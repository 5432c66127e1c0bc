import MailMerge.Disk.Folder

/-! # Changes from outside

What other programs do to a disk between the dealings of this one, and what a disk shows to
somebody who looks at all of it.
-/

namespace MailMerge.Disk

/-- A change that this program has not asked for. -/
inductive Change
  /-- Gives a file this content. The folders above it are made if they are missing. -/
  | write (p : Path) (bytes : Bytes)
  /-- Makes a folder and those above it that are missing. -/
  | makeFolder (p : Path)
  /-- Takes away what the path names, with everything below it. -/
  | remove (p : Path)
  | rename (p q : Path)
  | link (p : Path) (target : Bytes)
  | stamp (p : Path) (t : Moment)
  deriving DecidableEq, Repr

variable (d : Disk)

def removeTree (p : Path) : Except Fault Disk := do
  let q ← d.resolve false p.trimSlashes
  if d.isFolderAt q then return (d.tick.dropUnder q).stampAt q.tail d.tick.now
  d.remove p

def makeLink (p : Path) (target : Bytes) : Except Fault Disk := do
  let q ← d.resolve false p
  if (d.get? q).isSome then throw .alreadyExists
  return (d.tick.put q (.link target)).stampAt q.tail d.tick.now

/-- The disk after a change; one that fails changes nothing. -/
def change (c : Change) : Disk :=
  match c with
  | .write p bytes =>
    let d' := ((Program.makeFolders (p.parent?.getD ⟨[]⟩)).run d).2
    ((d'.write p bytes).toOption).getD d'
  | .makeFolder p => ((Program.makeFolders p).run d).2
  | .remove p => (d.removeTree p).toOption.getD d
  | .rename p q => (d.rename p q).toOption.getD d
  | .link p target => (d.makeLink p target).toOption.getD d
  | .stamp p t => ((d.resolve true p).map fun q => d.stampAt q t).toOption.getD d

/-- The names on the way from `p` down to `q`, outermost first, if `q` lies below `p`. -/
def namesBelow? (p q : Place) : Option (List Bytes) :=
  if p.isSuffixOf q && p ≠ q then some (q.take (q.length - p.length)).reverse else none

/-- The path of what lies below a folder; a slash ends the path of a folder. -/
def pathBelow (names : List Bytes) (x : Entry) : Bytes :=
  List.intercalate [Path.slash] names ++ if x.isFolder then [Path.slash] else []

/-- Everything below the place `p`, with its path from there, sorted by path. -/
def below (p : Place) : List (Bytes × Entry) :=
  let found := d.entries.filterMap fun e =>
    (namesBelow? p e.1).map fun names => (pathBelow names e.2, e.2)
  found.mergeSort fun a b => decide (a.1 ≤ b.1)

end MailMerge.Disk
