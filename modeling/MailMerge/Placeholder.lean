/-! # Placeholders

The five placeholders of an email template and the token each one is written as. A token is
`%%EMAIL_`, a word, and `%%`; no token is a prefix of another one.
-/

namespace MailMerge

/-- A place in a template that takes a value of the email. -/
inductive Placeholder
  | header
  | body
  | footer
  | correspondentName
  | senderName
  deriving DecidableEq, Repr

/-- The two characters that close a token, and the first two of every token. -/
def delimiter : List Char := ['%', '%']

def tokenStart : List Char := ['%', '%', 'E', 'M', 'A', 'I', 'L', '_']

namespace Placeholder

/-- Every placeholder once, in the order in which rules are checked and values are shown. -/
def all : List Placeholder := [header, body, footer, correspondentName, senderName]

def rank : Placeholder → Nat
  | header => 0
  | body => 1
  | footer => 2
  | correspondentName => 3
  | senderName => 4

def word : Placeholder → List Char
  | header => ['H', 'E', 'A', 'D', 'E', 'R']
  | body => ['B', 'O', 'D', 'Y']
  | footer => ['F', 'O', 'O', 'T', 'E', 'R']
  | correspondentName => ['N', 'A', 'M', 'E']
  | senderName => ['S', 'E', 'N', 'D', 'E', 'R']

def tokenChars (p : Placeholder) : List Char := tokenStart ++ p.word ++ delimiter

def token (p : Placeholder) : String := String.ofList p.tokenChars

/-- The name used in messages. -/
def label : Placeholder → String
  | header => "Header"
  | body => "Body"
  | footer => "Footer"
  | correspondentName => "CorrespondentName"
  | senderName => "SenderName"

/-- The name used in documents: settings files, requests and stored values. -/
def key : Placeholder → String
  | header => "header"
  | body => "body"
  | footer => "footer"
  | correspondentName => "correspondent_name"
  | senderName => "sender_name"

def ofToken? (token : String) : Option Placeholder :=
  all.find? fun p => p.token == token

def ofLabel? (label : String) : Option Placeholder :=
  all.find? fun p => p.label == label

def ofKey? (key : String) : Option Placeholder :=
  all.find? fun p => p.key == key

def startOf? (cs : List Char) : Option Placeholder :=
  all.find? fun p => p.tokenChars.isPrefixOf cs

@[simp] theorem mem_all (p : Placeholder) : p ∈ all := by cases p <;> decide

theorem tokenChars_ne_nil (p : Placeholder) : p.tokenChars ≠ [] := by cases p <;> decide

/-- Of two tokens that start one text, each is the other. -/
theorem eq_of_prefix_tokenChars {p q : Placeholder} (h : p.tokenChars <+: q.tokenChars) :
    p = q := by
  revert h
  cases p <;> cases q <;> decide

theorem prefix_of_startOf?_eq_some {cs : List Char} {p : Placeholder}
    (h : startOf? cs = some p) : p.tokenChars <+: cs := by
  have hp := @List.find?_some _ (fun p : Placeholder => p.tokenChars.isPrefixOf cs) p all h
  exact List.isPrefixOf_iff_prefix.mp hp

theorem startOf?_eq_some_iff {cs : List Char} {p : Placeholder} :
    startOf? cs = some p ↔ p.tokenChars <+: cs := by
  constructor
  · exact prefix_of_startOf?_eq_some
  · intro h
    cases hq : startOf? cs with
    | none =>
      have hp := List.find?_eq_none.mp hq p (mem_all p)
      exact absurd (List.isPrefixOf_iff_prefix.mpr h) hp
    | some q =>
      rcases List.prefix_or_prefix_of_prefix h (prefix_of_startOf?_eq_some hq) with hpq | hqp
      · rw [eq_of_prefix_tokenChars hpq]
      · rw [eq_of_prefix_tokenChars hqp]

theorem startOf?_eq_none_iff {cs : List Char} :
    startOf? cs = none ↔ ∀ p : Placeholder, ¬ p.tokenChars <+: cs := by
  rw [Option.eq_none_iff_forall_ne_some]
  exact forall_congr' fun p => not_congr startOf?_eq_some_iff

end Placeholder

end MailMerge
