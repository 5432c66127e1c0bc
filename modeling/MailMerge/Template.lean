import MailMerge.Substitution
import MailMerge.Text.Search

/-! # Templates

A template is a named document. The template named `Default` is protected: it stands in wherever
a request names none, and is never changed through the catalog.
-/

namespace MailMerge

structure Template where
  name : String
  html : String
  deriving DecidableEq, Repr, Inhabited

def defaultName : String := "Default"

namespace Template

variable (t : Template)

/-- The protected template as it is first stored: the body of the email and nothing else. -/
def seed : Template := ⟨defaultName, Placeholder.body.token⟩

def isProtected : Bool := t.name == defaultName

/-- Whether the token of `p` is written in the document. -/
def contains (p : Placeholder) : Bool := occursIn p.tokenChars t.html.toList

def placeholders : List Placeholder := Placeholder.all.filter t.contains

def render (f : Fragments) : String := substitute t.html f

end Template

inductive NameFault
  | blank
  | separator
  | leadingDot
  deriving DecidableEq, Repr

/-- A character that would lead out of the folder of the templates, or end a path. -/
def isSeparator (c : Char) : Bool := c == '/' || c == '\\' || c == '\x00'

namespace NameFault

def reason : NameFault → String
  | blank => "name must not be blank"
  | separator => "name must not contain path separators"
  | leadingDot => "name must not start with '.'"

def of? (name : String) : Option NameFault :=
  if isBlank name then some blank
  else if name.toList.any isSeparator then some separator
  else if name.toList.head? == some '.' then some leadingDot
  else none

end NameFault

/-- `name` may be the name of a template. -/
def ValidName (name : String) : Prop := NameFault.of? name = none

instance (name : String) : Decidable (ValidName name) :=
  inferInstanceAs (Decidable (NameFault.of? name = none))

theorem validName_iff {name : String} :
    ValidName name ↔ isBlank name = false ∧ (∀ c ∈ name.toList, isSeparator c = false) ∧
      name.toList.head? ≠ some '.' := by
  unfold ValidName NameFault.of?
  split
  · simp_all
  · split
    · rename_i hs
      simp only [reduceCtorEq, false_iff, not_and]
      intro _ h
      obtain ⟨c, hc, hsep⟩ := List.any_eq_true.mp hs
      simp [h c hc] at hsep
    · split <;> simp_all

end MailMerge
