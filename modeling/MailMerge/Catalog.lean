import MailMerge.Store.Basic

/-! # The catalog

The rules for changing a store of templates: names are unique, the protected template is neither
changed nor deleted, and only what is there can be changed.
-/

namespace MailMerge

/-- Which template an update replaces: the one with the name of the incoming template, or the one
that the caller names, which may give it another name. -/
inductive UpdateLookup
  | incomingName
  | routeName
  deriving DecidableEq, Repr, Inhabited

namespace Catalog

variable {σ : Type} [TemplateStore σ]

def protect (name : String) (action : Action) : Except TemplateError Unit :=
  if name = defaultName then .error (.unauthorized name action) else .ok ()

def target (lookup : UpdateLookup) (name : String) (t : Template) : String :=
  match lookup with
  | .incomingName => t.name
  | .routeName => name

def list : StoreM σ (List Template) := TemplateStore.list

def names : StoreM σ (List String) := do return (← list).map Template.name

def get (name : String) : StoreM σ Template := TemplateStore.get name

def create (t : Template) : StoreM σ Template := do
  StoreM.ofExcept (checkName t.name)
  if ← TemplateStore.contains t.name then throw (.duplicate t.name)
  TemplateStore.create t

/-- Replaces a template; under `routeName` it may take another name that is not in use. -/
def update (lookup : UpdateLookup) (name : String) (t : Template) : StoreM σ Template := do
  StoreM.ofExcept (protect name .updated)
  StoreM.ofExcept (checkName t.name)
  let old := target lookup name t
  StoreM.ofExcept (protect old .updated)
  if !(← TemplateStore.contains old) then throw (.notFound old)
  if lookup = .routeName ∧ t.name ≠ old then
    if ← TemplateStore.contains t.name then throw (.duplicate t.name)
  TemplateStore.update old t

def delete (name : String) : StoreM σ Template := do
  StoreM.ofExcept (protect name .deleted)
  if !(← TemplateStore.contains name) then throw (.notFound name)
  TemplateStore.delete name

end Catalog

end MailMerge
