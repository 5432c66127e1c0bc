import MailMerge.Placeholder
import MailMerge.Text.Blank

/-! # Fragments

The values an email supplies for the placeholders, at most one for each.
-/

namespace MailMerge

/-- One optional value per placeholder. -/
structure Fragments where
  header : Option String := none
  body : Option String := none
  footer : Option String := none
  correspondentName : Option String := none
  senderName : Option String := none
  deriving DecidableEq, Repr, Inhabited

namespace Fragments

variable (f : Fragments)

def empty : Fragments := {}

def get? : Placeholder → Option String
  | .header => f.header
  | .body => f.body
  | .footer => f.footer
  | .correspondentName => f.correspondentName
  | .senderName => f.senderName

def set (p : Placeholder) (value : Option String) : Fragments :=
  match p with
  | .header => { f with header := value }
  | .body => { f with body := value }
  | .footer => { f with footer := value }
  | .correspondentName => { f with correspondentName := value }
  | .senderName => { f with senderName := value }

def insert (p : Placeholder) (value : String) : Fragments := f.set p (some value)

/-- The text that takes the place of the token: nothing where no value is supplied. -/
def textFor (p : Placeholder) : String := (f.get? p).getD ""

/-- Nothing is supplied for `p`, or only white space. -/
def isBlankAt (p : Placeholder) : Bool := ((f.get? p).map isBlank).getD true

def toList : List (Placeholder × String) :=
  Placeholder.all.filterMap fun p => (f.get? p).map fun v => (p, v)

def ofFn (value : Placeholder → Option String) : Fragments where
  header := value .header
  body := value .body
  footer := value .footer
  correspondentName := value .correspondentName
  senderName := value .senderName

@[simp] theorem get?_empty (p : Placeholder) : empty.get? p = none := by cases p <;> rfl

@[simp] theorem get?_ofFn (value : Placeholder → Option String) (p : Placeholder) :
    (ofFn value).get? p = value p := by cases p <;> rfl

variable {f}

@[ext] theorem ext_get? {g : Fragments} (h : ∀ p, f.get? p = g.get? p) : f = g := by
  cases f; cases g
  have h₁ := h .header
  have h₂ := h .body
  have h₃ := h .footer
  have h₄ := h .correspondentName
  have h₅ := h .senderName
  simp only [get?] at h₁ h₂ h₃ h₄ h₅
  subst h₁ h₂ h₃ h₄ h₅
  rfl

theorem get?_set (p q : Placeholder) (v : Option String) :
    (f.set p v).get? q = if q = p then v else f.get? q := by
  cases p <;> cases q <;> rfl

theorem get?_insert (p q : Placeholder) (v : String) :
    (f.insert p v).get? q = if q = p then some v else f.get? q :=
  get?_set p q (some v)

theorem mem_toList {p : Placeholder} {v : String} : (p, v) ∈ f.toList ↔ f.get? p = some v := by
  simp [toList]

end Fragments

end MailMerge
