import MailMerge.Store.Basic
import MailMerge.Store.Shelf

/-! # Stores in a folder

One file per template: `<name>.<extension>`, with the document as its content. The folder is the
truth. What was read from it is kept in an index, together with a signal of the state of the
folder at that time; an operation reads everything again if the signal has changed. A document
that cannot be read is left out, and only operations that name it fail.
-/

namespace MailMerge

open Disk

/-- A cheap fingerprint of the folder: the number of documents, and the latest change of a
document or of the folder itself. -/
structure Signal where
  count : Nat
  latest : Moment
  deriving DecidableEq, Repr

structure Index where
  templates : Shelf Template := Shelf.empty
  unreadable : Shelf (Path × Fault) := Shelf.empty
  signal : Option Signal := none

def Index.find (ix : Index) (name : String) : Except TemplateError Template :=
  match ix.templates.get? name with
  | some t => .ok t
  | none =>
    match ix.unreadable.get? name with
    | some (path, fault) => .error (.storage path fault)
    | none => .error (.notFound name)

structure DirectoryStore where
  dir : Path
  extension : String
  index : Index := {}

namespace DirectoryStore

def defaultExtension : String := "html"

def dot : UInt8 := 0x2E

/-- A file name cut at its last dot into stem and extension. A name without a dot, or with one only
in front, has no extension. -/
def splitExtension (file : Bytes) : Bytes × Option Bytes :=
  let ending := (file.reverse.takeWhile (· != dot)).reverse
  let stem := file.take (file.length - ending.length - 1)
  if file = upName ∨ ending.length = file.length ∨ stem = [] then (file, none)
  else (stem, some ending)

/-- The name of the template that a file of this name holds, if it is a document at all. -/
def documentName (extension : String) (file : Bytes) : Option String :=
  match splitExtension file with
  | (stem, some ending) =>
    if ending = Utf8.encode extension ∧ stem.head? ≠ some dot then Utf8.decode? stem else none
  | (_, none) => none

def fileName (extension name : String) : String := name ++ "." ++ extension

/-- The name of the file that holds the template `name` until it is complete. -/
def draftName (extension name : String) : String := fileName extension name ++ ".tmp"

def pathFor (s : DirectoryStore) (name : String) : Path := s.dir.child (fileName s.extension name)

def draftPathFor (s : DirectoryStore) (name : String) : Path :=
  s.dir.child (draftName s.extension name)

/-- Opens a store over the folder `dir`, which is made if nothing is there. -/
def openAt (dir : Path) (extension : String) : Program (Except TemplateError DirectoryStore) := do
  if ← Program.pathExists dir then return .ok { dir, extension }
  match ← Program.makeFolders dir with
  | .ok () => return .ok { dir, extension }
  | .error fault => return .error (.storage dir fault)

/-- The documents among the files of a folder, each with its path. -/
def documents (s : DirectoryStore) (files : List (Bytes × Info)) : List (String × Path × Info) :=
  files.filterMap fun f =>
    match documentName s.extension f.1 with
    | some name => if f.2.isFile then some (name, s.dir.join ⟨f.1⟩, f.2) else none
    | none => none

/-- The signal of a folder that changed last at `stamp` and holds these documents. -/
def signalOf (stamp : Moment) (docs : List (String × Path × Info)) : Signal where
  count := docs.length
  latest := docs.foldl (fun t doc => max t doc.2.2.stamp) stamp

def scan : StoreM DirectoryStore (List (String × Path × Info) × Signal) := do
  let s ← get
  let folder ← StoreM.request s.dir (Program.perform (.look s.dir))
  let files ← StoreM.request s.dir (Program.perform (.list s.dir))
  let docs := s.documents files
  return (docs, signalOf folder.stamp docs)

def readAll : List (String × Path × Info) → Program Index
  | [] => return {}
  | doc :: docs => do
    let text ← Program.readText doc.2.1
    let rest ← readAll docs
    match text with
    | .ok html => return { rest with templates := rest.templates.insert doc.1 ⟨doc.1, html⟩ }
    | .error fault =>
      return { rest with unreadable := rest.unreadable.insert doc.1 (doc.2.1, fault) }

def load (docs : List (String × Path × Info)) (signal : Signal) : StoreM DirectoryStore Unit := do
  let ix ← readAll docs
  modify fun s => { s with index := { ix with signal := some signal } }

/-- Reads the folder again if its signal has changed. -/
def refresh : StoreM DirectoryStore Unit := do
  let (docs, signal) ← scan
  if (← get).index.signal = some signal then return ()
  load docs signal

def reload : StoreM DirectoryStore Unit := do
  let (docs, signal) ← scan
  load docs signal

def find (name : String) : StoreM DirectoryStore Template := do
  StoreM.ofExcept ((← get).index.find name)

/-- Writes a draft next to the document and then gives it the document's name, so that no reader
ever sees half a document. -/
def writeDocument (t : Template) : StoreM DirectoryStore Unit := do
  StoreM.ofExcept (checkName t.name)
  let s ← get
  let draft := s.draftPathFor t.name
  let path := s.pathFor t.name
  StoreM.request draft (Program.perform (.write draft (Utf8.encode t.html)))
  StoreM.request path (Program.perform (.rename draft path))

def removeDocument (name : String) : StoreM DirectoryStore Unit := do
  let path := (← get).pathFor name
  StoreM.request path (Program.perform (.remove path))

instance : TemplateStore DirectoryStore where
  list := do
    refresh
    return (← get).index.templates.values
  get name := do
    refresh
    find name
  create t := do
    writeDocument t
    reload
    return t
  update name t := do
    refresh
    let _ ← find name
    writeDocument t
    if t.name ≠ name then removeDocument name
    reload
    return t
  delete name := do
    refresh
    let t ← find name
    removeDocument name
    reload
    return t

end DirectoryStore

end MailMerge
