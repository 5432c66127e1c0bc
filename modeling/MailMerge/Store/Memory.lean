import MailMerge.Store.Basic
import MailMerge.Store.Shelf

/-! # Stores in memory

A shelf of templates, each under its own name.
-/

namespace MailMerge

structure MemoryStore where
  templates : Shelf Template

namespace MemoryStore

def ofList (ts : List Template) : MemoryStore := ⟨Shelf.ofList (ts.map fun t => (t.name, t))⟩

def find (name : String) : StoreM MemoryStore Template := do
  match (← get).templates.get? name with
  | some t => return t
  | none => throw (.notFound name)

def put (t : Template) : StoreM MemoryStore Template := do
  modify fun s => ⟨s.templates.insert t.name t⟩
  return t

def drop (name : String) : StoreM MemoryStore Unit :=
  modify fun s => ⟨s.templates.erase name⟩

instance : TemplateStore MemoryStore where
  list := do return (← get).templates.values
  get := find
  create := put
  update name t := do
    let _ ← find name
    drop name
    put t
  delete name := do
    let t ← find name
    drop name
    return t

end MemoryStore

end MailMerge
