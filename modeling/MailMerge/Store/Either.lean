import MailMerge.Store.Directory
import MailMerge.Store.Memory

/-! # Stores of either kind

A store whose kind is known only when the program runs.
-/

namespace MailMerge

inductive Store
  | memory (s : MemoryStore)
  | directory (s : DirectoryStore)

namespace Store

/-- A dealing that every kind of store can take part in. -/
def deal {α : Type} (m : {σ : Type} → [TemplateStore σ] → StoreM σ α) : StoreM Store α :=
  StoreM.ofFn fun
    | memory s => do
      let (r, s') ← (m (σ := MemoryStore)).start s
      return (r, memory s')
    | directory s => do
      let (r, s') ← (m (σ := DirectoryStore)).start s
      return (r, directory s')

instance : TemplateStore Store where
  list := deal TemplateStore.list
  get name := deal (TemplateStore.get name)
  create t := deal (TemplateStore.create t)
  update name t := deal (TemplateStore.update name t)
  delete name := deal (TemplateStore.delete name)

end Store

end MailMerge
