import MailMerge.Disk.Program

/-! # Folders on the way

Small programs over single requests: whether a path leads anywhere, and a folder made together
with the folders it is to lie in.
-/

namespace MailMerge

open Disk

namespace Path

/-- The path itself and then the folders above it, up to the first one without a name. -/
def ancestorsFrom : (fuel : Nat) → Path → List Path
  | 0, _ => []
  | fuel + 1, p =>
    match p.parent? with
    | some q => if q.bytes = [] then [p] else p :: ancestorsFrom fuel q
    | none => [p]

def ancestors (p : Path) : List Path :=
  if p.bytes = [] then [] else p.ancestorsFrom p.bytes.length

end Path

namespace Program

def pathExists (p : Path) : Program Bool := do
  match ← perform (.look p) with
  | .ok _ => return true
  | .error _ => return false

def isFolder (p : Path) : Program Bool := do
  match ← perform (.look p) with
  | .ok info => return info.isFolder
  | .error _ => return false

/-- A failure that does not matter if the folder is there all the same. -/
def unlessFolder (p : Path) (e : Fault) : Program (Except Fault Unit) := do
  if ← isFolder p then return .ok () else return .error e

/-- Makes the first folder of the list. The others are the folders above it; they are made first
if it turns out that they are missing. -/
def makeChain : List Path → Program (Except Fault Unit)
  | [] => return .ok ()
  | p :: above => do
    match ← perform (.makeFolder p) with
    | .ok () => return .ok ()
    | .error .notFound =>
      match ← makeChain above with
      | .error e => return .error e
      | .ok () =>
        match ← perform (.makeFolder p) with
        | .ok () => return .ok ()
        | .error e => unlessFolder p e
    | .error e => unlessFolder p e

def makeFolders (p : Path) : Program (Except Fault Unit) := makeChain p.ancestors

def readText (p : Path) : Program (Except Fault String) := do
  match ← perform (.read p) with
  | .error e => return .error e
  | .ok bytes =>
    match Utf8.decode? bytes with
    | some text => return .ok text
    | none => return .error .notText

end Program

end MailMerge
