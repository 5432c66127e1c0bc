import MailMerge.Proofs.Address.Grammar
import MailMerge.Rendering
import Mathlib.Data.List.Basic
import Mathlib.Logic.Basic

/-! # Which addresses are accepted

The rules for an address stand in an order, and a text that breaks some is refused for the first
that it breaks. Together they ask for no more and no less than the grammar: an address is a local
part, an at sign and a domain of at least two labels.
-/

namespace MailMerge

open Address

theorem length_fields {α : Type} [DecidableEq α] (sep : α) (cs : List α) :
    (fields sep cs).length = cs.count sep + 1 := by
  induction cs with
  | nil => rfl
  | cons c cs ih =>
    by_cases hc : c = sep
    · subst hc
      rw [fields_cons_self, List.length_cons, ih, List.count_cons_self]
    · obtain ⟨w, ws, hf, hcons⟩ := fields_cons_of_ne hc cs
      rw [hcons, List.count_cons_of_ne hc, ← ih, hf, List.length_cons, List.length_cons]

theorem find?_cons_eq_ite {α : Type} {p : α → Bool} {a : α} {l : List α} {b : Prop} [Decidable b]
    (h : p a = true ↔ b) : (a :: l).find? p = if b then some a else l.find? p := by
  by_cases hb : b
  · rw [if_pos hb, List.find?_cons_of_pos (h.mpr hb)]
  · rw [if_neg hb, List.find?_cons_of_neg (mt h.mp hb)]

/-- `l` and `d` are the two sides of the only at sign. -/
structure Sides (cs l d : List Char) : Prop where
  eq : cs = l ++ '@' :: d
  left : '@' ∉ l
  right : '@' ∉ d

section Sides

variable {cs l d : List Char}

theorem sides_iff : Sides cs l d ↔ fields '@' cs = [l, d] := by
  constructor
  · rintro ⟨rfl, hl, hd⟩
    rw [fields_append_cons hl, fields_of_not_mem hd]
  · intro h
    rcases fields_cases '@' cs with ⟨-, hf⟩ | ⟨w, rest, hw, rfl, hf⟩
    · simp [hf] at h
    · obtain ⟨rfl, hrest⟩ := List.cons.inj (hf.symm.trans h)
      rcases fields_cases '@' rest with ⟨hd, hf⟩ | ⟨v, rest, -, -, hf⟩
      · obtain ⟨rfl, -⟩ := List.cons.inj (hf.symm.trans hrest)
        exact ⟨rfl, hw, hd⟩
      · exact absurd (List.cons.inj (hf.symm.trans hrest)).2 (fields_ne_nil '@' rest)

theorem count_eq_one_iff : cs.count '@' = 1 ↔ ∃ l d, Sides cs l d := by
  simp only [sides_iff, ← List.length_eq_two, length_fields, Nat.reduceEqDiff]

/-- What is said of both sides of the only at sign is said of these two. -/
theorem Sides.forall_iff (h : Sides cs l d) {P : List Char → List Char → Prop} :
    (∀ l' d', Sides cs l' d' → P l' d') ↔ P l d := by
  constructor
  · intro hall
    exact hall l d h
  · intro hP l' d' h'
    have heq := (sides_iff.mp h').symm.trans (sides_iff.mp h)
    simp only [List.cons.injEq, and_true] at heq
    rwa [heq.1, heq.2]

end Sides

def BareLabel (w : List Char) : Prop := w ≠ [] ∧ '.' ∉ w

theorem dotted_bareLabel_iff {d : List Char} : Dotted BareLabel d ↔ [] ∉ fields '.' d := by
  rw [← forall_mem_fields_iff fun _ h => h.2]
  constructor
  · intro h hnil
    exact (h [] hnil).1 rfl
  · rintro h w hw
    constructor
    · rintro rfl
      exact h hw
    · exact not_mem_of_mem_fields hw

structure AddressParts (l d : List Char) : Prop where
  no_space : ∀ c ∈ l ++ d, isSpace c = false
  ne_nil : l ≠ []
  dot : '.' ∈ d
  labels : Dotted BareLabel d
  localPart : LocalPart l
  domain : Domain d

def IsAddress (cs : List Char) : Prop := ∃ l d, Sides cs l d ∧ AddressParts l d

namespace AddressFault

variable {cs l d : List Char} {s : String} {fault : AddressFault}

/-- The rule that a text keeps if it does not have the fault. -/
def Avoided (cs : List Char) : AddressFault → Prop
  | blank => ∃ c ∈ cs, isSpace c = false
  | outerSpace => ∀ c, cs.head? = some c ∨ cs.getLast? = some c → isSpace c = false
  | innerSpace => ∀ c ∈ cs, isSpace c = false
  | atSigns => cs.count '@' = 1
  | noLocal => ∀ l d, Sides cs l d → l ≠ []
  | noDomain => ∀ l d, Sides cs l d → d ≠ []
  | noTopLevel => ∀ l d, Sides cs l d → '.' ∈ d
  | emptyLabel => ∀ l d, Sides cs l d → Dotted BareLabel d
  | malformed => ∀ l d, Sides cs l d → LocalPart l ∧ Domain d

/-- The faults that only a text with one at sign has. -/
def sideFaults : List AddressFault := [noLocal, noDomain, noTopLevel, emptyLabel, malformed]

/-- All faults, in the order in which they are looked for. -/
def all : List AddressFault := blank :: outerSpace :: innerSpace :: atSigns :: sideFaults

theorem mem_all (fault : AddressFault) : fault ∈ all := by
  cases fault <;> decide

/-- The text has the fault, and none that comes before it. -/
def IsFirst (fault : AddressFault) (cs : List Char) : Prop :=
  ¬ Avoided cs fault ∧
    ∃ before after, all = before ++ fault :: after ∧ ∀ earlier ∈ before, Avoided cs earlier

theorem isAddress_iff : IsAddress cs ↔ ∀ fault, Avoided cs fault := by
  constructor
  · rintro ⟨l, d, hsides, hparts⟩
    have hspace : ∀ c ∈ cs, isSpace c = false := by
      rw [hsides.eq, List.forall_mem_append, List.forall_mem_cons]
      have := List.forall_mem_append.mp hparts.no_space
      exact ⟨this.1, by decide, this.2⟩
    intro fault
    cases fault with
    | blank => exact ⟨'@', by simp [hsides.eq], by decide⟩
    | outerSpace =>
      rintro c (hc | hc)
      · exact hspace c (List.mem_of_head? hc)
      · exact hspace c (List.mem_of_getLast? hc)
    | innerSpace => exact hspace
    | atSigns => exact count_eq_one_iff.mpr ⟨l, d, hsides⟩
    | noLocal => exact hsides.forall_iff.mpr hparts.ne_nil
    | noDomain => exact hsides.forall_iff.mpr (List.ne_nil_of_mem hparts.dot)
    | noTopLevel => exact hsides.forall_iff.mpr hparts.dot
    | emptyLabel => exact hsides.forall_iff.mpr hparts.labels
    | malformed => exact hsides.forall_iff.mpr ⟨hparts.localPart, hparts.domain⟩
  · intro h
    obtain ⟨l, d, hsides⟩ := count_eq_one_iff.mp (h atSigns)
    have hspace : ∀ c ∈ cs, isSpace c = false := h innerSpace
    rw [hsides.eq, List.forall_mem_append, List.forall_mem_cons] at hspace
    obtain ⟨hlocal, hdomain⟩ := h malformed l d hsides
    exact ⟨l, d, hsides, List.forall_mem_append.mpr ⟨hspace.1, hspace.2.2⟩, h noLocal l d hsides,
      h noTopLevel l d hsides, h emptyLabel l d hsides, hlocal, hdomain⟩

section Search

open Classical in
noncomputable def has (cs : List Char) (fault : AddressFault) : Bool :=
  if Avoided cs fault then false else true

theorem has_iff : has cs fault = true ↔ ¬ Avoided cs fault := by
  simp [has]

theorem ofParts?_eq_find? (h : Sides cs l d) : ofParts? l d = sideFaults.find? (has cs) := by
  have hlocal : has cs noLocal = true ↔ l = [] := by
    rw [has_iff, Avoided, h.forall_iff, not_not]
  have hdomain : has cs noDomain = true ↔ d = [] := by
    rw [has_iff, Avoided, h.forall_iff, not_not]
  have hdot : has cs noTopLevel = true ↔ '.' ∉ d := by
    rw [has_iff, Avoided, h.forall_iff]
  have hlabels : has cs emptyLabel = true ↔ [] ∈ fields '.' d := by
    rw [has_iff, Avoided, h.forall_iff (P := fun _ d => Dotted BareLabel d), dotted_bareLabel_iff,
      not_not]
  have hform : has cs malformed = true ↔ ¬ (isLocal l && isDomain d) = true := by
    rw [has_iff, Avoided, h.forall_iff, Bool.and_eq_true, isLocal_iff, isDomain_iff]
  rw [sideFaults, find?_cons_eq_ite hlocal, find?_cons_eq_ite hdomain, find?_cons_eq_ite hdot,
    find?_cons_eq_ite hlabels, find?_cons_eq_ite hform, ofParts?]
  simp only [ite_not]
  rfl

theorem of?_eq_find? (s : String) : of? s = all.find? (has s.toList) := by
  have hblank : has s.toList blank = true ↔ isBlank s = true := by
    simp [has_iff, Avoided, isBlank_iff]
  have houter : has s.toList outerSpace = true ↔ hasOuterSpace s = true := by
    simp [has_iff, Avoided, hasOuterSpace, Option.any_eq_true, or_and_right, exists_or]
  have hinner : has s.toList innerSpace = true ↔ s.toList.any isSpace = true := by
    simp [has_iff, Avoided]
  have hat : has s.toList atSigns = true ↔ ¬ s.toList.count '@' = 1 := has_iff
  rw [all, find?_cons_eq_ite hblank, find?_cons_eq_ite houter, find?_cons_eq_ite hinner,
    find?_cons_eq_ite hat, of?]
  iterate 3
    apply ite_congr rfl (fun _ => rfl)
    intro _
  split
  · rename_i l d hf
    have hsides := sides_iff.mpr hf
    rw [if_neg (not_not.mpr (count_eq_one_iff.mpr ⟨l, d, hsides⟩)), ofParts?_eq_find? hsides]
  · rename_i hother
    rw [if_pos]
    intro hcount
    obtain ⟨l, d, hsides⟩ := count_eq_one_iff.mp hcount
    exact hother l d (sides_iff.mp hsides)

end Search

theorem of?_eq_none_iff : of? s = none ↔ IsAddress s.toList := by
  rw [of?_eq_find?, List.find?_eq_none, isAddress_iff]
  simp only [has_iff, not_not, mem_all, forall_const]

theorem of?_eq_some_iff : of? s = some fault ↔ fault.IsFirst s.toList := by
  rw [of?_eq_find?, List.find?_eq_some_iff_append, has_iff, IsFirst]
  simp only [Bool.not_eq_true', ← Bool.not_eq_true, has_iff, not_not]

end AddressFault

/-- A text that is not blank is given to the rules, and a blank one breaks the first of them. -/
theorem checkAddress_some (a : String) : checkAddress (some a) =
    (AddressFault.of? a).elim (.ok a) fun fault => .error (.badRequest "Email" fault.reason) := by
  unfold checkAddress requireValue
  by_cases hblank : isBlank a = true
  · simp [hblank, AddressFault.of?, AddressFault.reason, recipientField, bind, Except.bind]
  · simp only [hblank, recipientField, bind, Except.bind, Bool.false_eq_true, if_false]
    cases AddressFault.of? a <;> rfl

theorem IsAddress.not_control {cs : List Char} (h : IsAddress cs) : ∀ c ∈ cs, ¬ Control c := by
  obtain ⟨l, d, hsides, hparts⟩ := h
  rw [hsides.eq, List.forall_mem_append, List.forall_mem_cons]
  exact ⟨hparts.localPart.not_control, by decide, hparts.domain.not_control⟩

/-- Dots and at signs follow other rules between quotes and brackets. -/
example : checkAddress (some "\"a..\\\"b\"@[c;d.e]") = .ok "\"a..\\\"b\"@[c;d.e]" := by decide

end MailMerge
