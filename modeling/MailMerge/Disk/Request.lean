import MailMerge.Disk.Walk

/-! # Requests to the disk

What a program may ask of a disk, and what each request does. A request that fails changes
nothing; one that changes something happens at a moment of its own.
-/

namespace MailMerge

namespace Disk

/-- What a look at something tells without reading it. -/
structure Info where
  isFile : Bool
  isFolder : Bool
  stamp : Moment
  deriving DecidableEq, Repr

end Disk

def Entry.info (x : Entry) : Disk.Info := ⟨x.isFile, x.isFolder, x.stamp⟩

namespace Path

/-- A slash stands at the end, so the path can only name a folder. -/
def endsInSlash (p : Path) : Bool := p.bytes.getLast? == some slash

/-- The last name is one that every folder has. -/
def endsInDots (p : Path) : Bool :=
  p.trimSlashes.names.getLast?.any fun n => n == selfName || n == upName

end Path

namespace Disk

variable (d : Disk)

def entryAt (p : Path) : Except Fault Entry := do
  match d.get? (← d.resolve true p) with
  | none => throw .notFound
  | some x => pure x

def look (p : Path) : Except Fault Info := Entry.info <$> d.entryAt p

/-- The names in a folder. What a name stands for is told without following links. -/
def list (p : Path) : Except Fault (List (Bytes × Info)) := do
  let q ← d.resolve true p
  match d.get? q with
  | none => throw .notFound
  | some (.folder _) => pure ((d.children q).map fun c => (c.1, c.2.info))
  | some _ => throw .notFolder

def read (p : Path) : Except Fault Bytes := do
  match ← d.entryAt p with
  | .file bytes _ _ => pure bytes
  | _ => throw .isFolder

def freshMode : Nat := 0o644

/-- Makes a file with this content, or gives a file this content in place. -/
def write (p : Path) (bytes : Bytes) : Except Fault Disk := do
  let q ← d.resolve true p.trimSlashes
  if p.endsInSlash then throw .isFolder
  match d.get? q with
  | some (.file _ mode _) => pure (d.tick.put q (.file bytes mode d.tick.now))
  | some _ => throw .isFolder
  | none => pure ((d.tick.put q (.file bytes freshMode d.tick.now)).stampAt q.tail d.tick.now)

def moveTree (p q : Place) : Disk :=
  let moved := d.entries.filter fun e => p.isSuffixOf e.1
  moved.foldl (fun d' e => d'.put (e.1.take (e.1.length - p.length) ++ q) e.2)
    ((d.dropUnder p).dropUnder q)

/-- Gives what `p` names the name `q`, in place of what `q` may name. A file replaces no folder, a
folder only an empty one, and no folder goes below itself. -/
def rename (p q : Path) : Except Fault Disk := do
  let a ← d.resolve false p.trimSlashes
  let b ← d.resolve false q.trimSlashes
  if p.endsInDots || q.endsInDots then throw .busy
  match d.get? a with
  | none => throw .notFound
  | some x =>
    if !x.isFolder && (p.endsInSlash || q.endsInSlash) then throw .notFolder
    if a = b then return d
    if x.isFolder && a.isSuffixOf b then throw .invalid
    match d.get? b with
    | some (.folder _) =>
      if !x.isFolder then throw .isFolder
      if (d.children b).length ≠ 0 then throw .notEmpty
    | some _ => if x.isFolder then throw .notFolder
    | none => pure ()
    let t := d.tick
    let moved := if x.isFolder then t.moveTree a b else (t.drop a).put b x
    return (moved.stampAt a.tail t.now).stampAt b.tail t.now

def remove (p : Path) : Except Fault Disk := do
  let q ← d.resolve false p.trimSlashes
  if p.endsInDots then throw .isFolder
  match d.get? q with
  | none => throw .notFound
  | some (.folder _) => throw .isFolder
  | some _ =>
    if p.endsInSlash then throw .notFolder
    return (d.tick.drop q).stampAt q.tail d.tick.now

def makeFolder (p : Path) : Except Fault Disk := do
  let q ← d.resolve false p.trimSlashes
  match d.get? q with
  | some _ => throw .alreadyExists
  | none => pure ((d.tick.put q (.folder d.tick.now)).stampAt q.tail d.tick.now)

def setMode (p : Path) (mode : Nat) : Except Fault Disk := do
  let q ← d.resolve true p
  match d.get? q with
  | none => throw .notFound
  | some (.file bytes _ stamp) => pure (d.put q (.file bytes mode stamp))
  | some _ => pure d

inductive Request
  | look (p : Path)
  | list (p : Path)
  | read (p : Path)
  | write (p : Path) (bytes : Bytes)
  | rename (p q : Path)
  | remove (p : Path)
  | makeFolder (p : Path)
  | setMode (p : Path) (mode : Nat)
  deriving DecidableEq, Repr

def Request.Reply : Request → Type
  | .look _ => Except Fault Info
  | .list _ => Except Fault (List (Bytes × Info))
  | .read _ => Except Fault Bytes
  | .write .. | .rename .. | .remove _ | .makeFolder _ | .setMode .. => Except Fault Unit

/-- The answer to a change, and the disk after it. -/
def settle : Except Fault Disk → Except Fault Unit × Disk
  | .ok d' => (.ok (), d')
  | .error e => (.error e, d)

def perform : (r : Request) → r.Reply × Disk
  | .look p => (d.look p, d)
  | .list p => (d.list p, d)
  | .read p => (d.read p, d)
  | .write p bytes => d.settle (d.write p bytes)
  | .rename p q => d.settle (d.rename p q)
  | .remove p => d.settle (d.remove p)
  | .makeFolder p => d.settle (d.makeFolder p)
  | .setMode p mode => d.settle (d.setMode p mode)

end Disk

end MailMerge
