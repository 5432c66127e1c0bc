import MailMerge.Disk.Folder
import MailMerge.TemplateError

/-! # Stores

What every store of templates can do. A store accepts blind writes: that names are unique and
that the protected template stays as it is, is up to the catalog above it.
-/

namespace MailMerge

open Disk

/-- A dealing with a store of type `σ`: it may ask the disk, it may change the store, and it ends
with a value or an error. A dealing that fails keeps the store as it was at that point. -/
abbrev StoreM (σ : Type) : Type → Type := ExceptT TemplateError (StateT σ Program)

namespace StoreM

variable {σ α : Type}

def start (m : StoreM σ α) (s : σ) : Program (Except TemplateError α × σ) := m.run.run s

def ofFn (f : σ → Program (Except TemplateError α × σ)) : StoreM σ α := ExceptT.mk fun s => f s

/-- A program whose failure is a storage error at `path`. -/
def request (path : Path) (p : Program (Except Fault α)) : StoreM σ α :=
  ofFn fun s => do
    match ← p with
    | .ok a => return (.ok a, s)
    | .error fault => return (.error (.storage path fault), s)

def ofExcept (r : Except TemplateError α) : StoreM σ α := ofFn fun s => return (r, s)

end StoreM

class TemplateStore (σ : Type) where
  /-- All templates in the order of their names. -/
  list : StoreM σ (List Template)
  /-- The template of this name; `notFound` if there is none. -/
  get : String → StoreM σ Template
  /-- Puts the template under its own name, in place of what was there. -/
  create : Template → StoreM σ Template
  /-- Replaces what is under the name by the template, which may have another name. -/
  update : String → Template → StoreM σ Template
  delete : String → StoreM σ Template

namespace TemplateStore

variable {σ : Type} [TemplateStore σ]

/-- Whether there is a template of this name. One that is there but cannot be read is an error. -/
def contains (name : String) : StoreM σ Bool :=
  StoreM.ofFn fun s => do
    match ← (get name).start s with
    | (.ok _, s') => return (.ok true, s')
    | (.error (.notFound _), s') => return (.ok false, s')
    | (.error e, s') => return (.error e, s')

/-- Stores the protected template if it is missing, and tells what was stored. -/
def seedDefault : StoreM σ (Option Template) := do
  if ← contains defaultName then return none
  return some (← create Template.seed)

end TemplateStore

end MailMerge
