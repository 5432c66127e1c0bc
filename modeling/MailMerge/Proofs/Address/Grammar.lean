import MailMerge.Address
import Mathlib.Tactic.MkIffOfInductiveProp

/-! # The grammar of addresses

What the two sides of an address may be, as a grammar over characters. The checks of the two sides
accept exactly what the grammar derives, and nothing that it derives holds a control character.
-/

namespace MailMerge

theorem fields_cases {α : Type} [DecidableEq α] (sep : α) (cs : List α) :
    (sep ∉ cs ∧ fields sep cs = [cs]) ∨
      ∃ w rest, sep ∉ w ∧ cs = w ++ sep :: rest ∧ fields sep cs = w :: fields sep rest := by
  by_cases h : sep ∈ cs
  · obtain ⟨w, rest, rfl, hw⟩ := List.eq_append_cons_of_mem h
    exact .inr ⟨w, rest, hw, rfl, fields_append_cons hw rest⟩
  · exact .inl ⟨h, fields_of_not_mem h⟩

namespace Address

/-- The code of the character is a pair of bytes, from C2 to DF and from 80 to BF. -/
def Paired (c : Char) : Prop :=
  ∃ upper lower, 0xC2 ≤ upper ∧ upper ≤ 0xDF ∧ 0x80 ≤ lower ∧ lower ≤ 0xBF ∧
    c.toNat = upper * 0x100 + lower

def AtomChar (c : Char) : Prop := isAlphanumeric c = true ∨ c ∈ atomSigns ∨ Paired c

def EscapedChar (c : Char) : Prop := 0x21 ≤ c.toNat ∧ c.toNat ≤ 0x7E

def QuotedChar (c : Char) : Prop :=
  c.toNat = 0x21 ∨ (0x23 ≤ c.toNat ∧ c.toNat ≤ 0x5B) ∨ (0x5D ≤ c.toNat ∧ c.toNat ≤ 0x7E) ∨ Paired c

def LiteralChar (c : Char) : Prop :=
  (0x21 ≤ c.toNat ∧ c.toNat ≤ 0x5A) ∨ (0x5E ≤ c.toNat ∧ c.toNat ≤ 0x7E) ∨ Paired c

def Control (c : Char) : Prop := c.toNat ≤ 0x1F ∨ (0x7F ≤ c.toNat ∧ c.toNat ≤ 0x9F)

instance (c : Char) : Decidable (Control c) :=
  inferInstanceAs (Decidable (c.toNat ≤ 0x1F ∨ (0x7F ≤ c.toNat ∧ c.toNat ≤ 0x9F)))

section Characters

variable {c : Char}

theorem isPaired_iff : isPaired c = true ↔ Paired c := by
  simp only [isPaired, Bool.and_eq_true, decide_eq_true_eq]
  constructor
  · rintro ⟨⟨⟨hupper, hupper'⟩, hlower⟩, hlower'⟩
    exact ⟨c.toNat / 256, c.toNat % 256, hupper, hupper', hlower, hlower', by omega⟩
  · rintro ⟨upper, lower, hupper, hupper', hlower, hlower', hc⟩
    omega

theorem isAtomChar_iff : isAtomChar c = true ↔ AtomChar c := by
  simp [isAtomChar, AtomChar, isPaired_iff, or_assoc]

theorem isVisible_iff : isVisible c = true ↔ EscapedChar c := by
  simp [isVisible, EscapedChar]

theorem ne_iff_toNat_ne {b : Char} : c ≠ b ↔ c.toNat ≠ b.toNat := by
  rw [ne_eq, ne_eq, Char.toNat_inj]

theorem isQuotedChar_iff : isQuotedChar c = true ↔ QuotedChar c := by
  have hquote : '"'.toNat = 0x22 := rfl
  have hback : '\\'.toNat = 0x5C := rfl
  simp only [isQuotedChar, Bool.or_eq_true, Bool.and_eq_true, isVisible_iff, isPaired_iff,
    bne_iff_ne, ne_iff_toNat_ne, EscapedChar, QuotedChar, hquote, hback, ← or_assoc]
  apply or_congr_left
  omega

theorem isLiteralChar_iff : isLiteralChar c = true ↔ LiteralChar c := by
  have hopen : '['.toNat = 0x5B := rfl
  have hback : '\\'.toNat = 0x5C := rfl
  have hclose : ']'.toNat = 0x5D := rfl
  simp only [isLiteralChar, Bool.or_eq_true, Bool.and_eq_true, isVisible_iff, isPaired_iff,
    bne_iff_ne, ne_iff_toNat_ne, EscapedChar, LiteralChar, hopen, hback, hclose, ← or_assoc]
  apply or_congr_left
  omega

theorem not_control_of_paired (h : Paired c) : ¬ Control c := by
  obtain ⟨upper, lower, hupper, -, -, -, hc⟩ := h
  unfold Control
  omega

theorem not_control_of_isAlphanumeric (h : isAlphanumeric c = true) : ¬ Control c := by
  have hranges : ∀ r ∈ alphanumericRanges, 0x1F < r.1 ∧ (r.2 < 0x7F ∨ 0x9F < r.1) := by
    decide +kernel
  obtain ⟨r, hr, hle, hge⟩ := inRanges_iff.mp h
  have := hranges r hr
  unfold Control
  omega

theorem not_control_of_atomChar (h : AtomChar c) : ¬ Control c := by
  rcases h with h | h | h
  · exact not_control_of_isAlphanumeric h
  · have hsigns : atomSigns.all (fun b => 0x1F < b.toNat && b.toNat < 0x7F) = true := by decide
    have hsign := List.all_eq_true.mp hsigns c h
    simp only [Bool.and_eq_true, decide_eq_true_eq] at hsign
    unfold Control
    omega
  · exact not_control_of_paired h

theorem not_control_of_escapedChar (h : EscapedChar c) : ¬ Control c := by
  unfold EscapedChar at h
  unfold Control
  omega

theorem not_control_of_quotedChar (h : QuotedChar c) : ¬ Control c := by
  rcases h with h | h | h | h
  case inr.inr.inr => exact not_control_of_paired h
  all_goals
    unfold Control
    omega

theorem not_control_of_literalChar (h : LiteralChar c) : ¬ Control c := by
  rcases h with h | h | h
  case inr.inr => exact not_control_of_paired h
  all_goals
    unfold Control
    omega

end Characters

/-- One piece or more, with a dot between each and the next. -/
inductive Dotted (P : List Char → Prop) : List Char → Prop
  | last {w : List Char} (hw : P w) : Dotted P w
  | cons {w rest : List Char} (hw : P w) (hrest : Dotted P rest) : Dotted P (w ++ '.' :: rest)

section Pieces

variable {P : List Char → Prop} {Q : Char → Prop} {cs w inner : List Char} {first last : Char}

/-- Pieces without a dot of their own are the fields between the dots. -/
theorem forall_mem_fields_iff (hdot : ∀ w, P w → '.' ∉ w) :
    (∀ w ∈ fields '.' cs, P w) ↔ Dotted P cs := by
  constructor
  · intro h
    induction hws : fields '.' cs generalizing cs with
    | nil => exact absurd hws (fields_ne_nil '.' cs)
    | cons v ws ih =>
      rcases fields_cases '.' cs with ⟨-, hf⟩ | ⟨w, rest, -, rfl, hf⟩
      · rw [hf, List.forall_mem_singleton] at h
        exact .last h
      · rw [hf, List.forall_mem_cons] at h
        exact .cons h.1 (ih h.2 (List.cons.inj (hf.symm.trans hws)).2)
  · intro h
    induction h with
    | last hw =>
      rw [fields_of_not_mem (hdot _ hw), List.forall_mem_singleton]
      exact hw
    | cons hw _ ih =>
      rw [fields_append_cons (hdot _ hw), List.forall_mem_cons]
      exact ⟨hw, ih⟩

theorem Dotted.forall_mem (h : Dotted P cs) (hP : ∀ w, P w → ∀ c ∈ w, Q c) (hdot : Q '.') :
    ∀ c ∈ cs, Q c := by
  induction h with
  | last hw => exact hP _ hw
  | cons hw _ ih => exact List.forall_mem_append.mpr ⟨hP _ hw, List.forall_mem_cons.mpr ⟨hdot, ih⟩⟩

theorem Dotted.head {c : Char} (h : Dotted P (c :: cs)) (hP : ∀ w, P w → w ≠ []) :
    ∃ w, P (c :: w) := by
  generalize hc : c :: cs = ds at h
  cases h with
  | last hw => exact ⟨cs, hc ▸ hw⟩
  | @cons w rest hw _ =>
    obtain ⟨b, w, rfl⟩ := List.exists_cons_of_ne_nil (hP _ hw)
    obtain ⟨rfl, -⟩ := List.cons.inj hc
    exact ⟨w, hw⟩

theorem between?_eq_some_iff :
    between? first last cs = some inner ↔ cs = first :: (inner ++ [last]) := by
  unfold between?
  constructor
  · intro h
    split at h
    · split at h
      · rename_i hends
        obtain ⟨rfl, hlast⟩ := hends
        obtain ⟨ys, rfl⟩ := List.getLast?_eq_some_iff.mp hlast
        rw [List.dropLast_concat] at h
        rw [Option.some.inj h]
      · simp at h
    · simp at h
  · rintro rfl
    simp

theorem between?_eq_none_iff :
    between? first last cs = none ↔ ∀ inner, cs ≠ first :: (inner ++ [last]) := by
  simp only [Option.eq_none_iff_forall_ne_some, ne_eq, between?_eq_some_iff]

def Atom (w : List Char) : Prop := w ≠ [] ∧ ∀ c ∈ w, AtomChar c

@[mk_iff] structure Label (w : List Char) : Prop where
  atom : Atom w
  length_le : (String.ofList w).utf8ByteSize ≤ 63
  head : ∃ c, w.head? = some c ∧ isAlphanumeric c = true
  last : ∃ c, w.getLast? = some c ∧ isAlphanumeric c = true

/-- What may stand between the quotes of a local part. -/
inductive QuotedText : List Char → Prop
  | nil : QuotedText []
  | plain {c : Char} {cs : List Char} (hc : QuotedChar c) (hcs : QuotedText cs) :
    QuotedText (c :: cs)
  | escaped {c : Char} {cs : List Char} (hc : EscapedChar c) (hcs : QuotedText cs) :
    QuotedText ('\\' :: c :: cs)

/-- A local part is made of atoms, or it stands between quotes and is not empty there. -/
def LocalForm (cs : List Char) : Prop :=
  Dotted Atom cs ∨ ∃ inner, inner ≠ [] ∧ QuotedText inner ∧ cs = '"' :: (inner ++ ['"'])

/-- A domain is made of labels, or it stands between brackets. -/
def DomainForm (cs : List Char) : Prop :=
  Dotted Label cs ∨ ∃ inner, (∀ c ∈ inner, LiteralChar c) ∧ cs = '[' :: (inner ++ [']'])

@[mk_iff] structure LocalPart (cs : List Char) : Prop where
  length_le : (String.ofList cs).utf8ByteSize ≤ 64
  no_angle : cs.head? ≠ some '<'
  form : LocalForm cs

@[mk_iff] structure Domain (cs : List Char) : Prop where
  length_le : (String.ofList cs).utf8ByteSize ≤ 254
  form : DomainForm cs

theorem byteLength_eq (cs : List Char) : byteLength cs = (String.ofList cs).utf8ByteSize := by
  induction cs with
  | nil => rfl
  | cons c cs ih =>
    rw [String.ofList_cons, String.utf8ByteSize_append, String.utf8ByteSize_singleton, ← ih]
    rfl

theorem not_atomChar {c : Char} (hc : c ∈ ['.', '"', '[']) : ¬ AtomChar c := by
  have hchecks : ['.', '"', '['].all (!isAtomChar ·) = true := by decide +kernel
  have hcheck := List.all_eq_true.mp hchecks c hc
  rwa [Bool.not_eq_true', ← Bool.not_eq_true, isAtomChar_iff] at hcheck

theorem Atom.no_dot (h : Atom w) : '.' ∉ w := fun hmem =>
  not_atomChar (by decide) (h.2 '.' hmem)

theorem isAtom_iff : isAtom w = true ↔ Atom w := by
  simp [isAtom, Atom, isAtomChar_iff]

theorem isDotAtom_iff : isDotAtom cs = true ↔ Dotted Atom cs := by
  simp only [isDotAtom, List.all_eq_true, isAtom_iff]
  exact forall_mem_fields_iff fun _ => Atom.no_dot

theorem isLabel_iff : isLabel w = true ↔ Label w := by
  simp only [label_iff, isLabel, labelLimit, Bool.and_eq_true, isAtom_iff, byteLength_eq,
    decide_eq_true_eq, Option.any_eq_true, and_assoc]

theorem isQuotedText_iff : isQuotedText cs = true ↔ QuotedText cs := by
  have hback : ¬ QuotedChar '\\' := by
    rw [← isQuotedChar_iff]
    decide
  constructor
  · intro h
    fun_induction isQuotedText cs with
    | case1 => exact .nil
    | case2 c cs ih =>
      rw [Bool.and_eq_true, isVisible_iff] at h
      exact .escaped h.1 (ih h.2)
    | case3 c cs _ ih =>
      rw [Bool.and_eq_true, isQuotedChar_iff] at h
      exact .plain h.1 (ih h.2)
  · intro h
    induction h with
    | nil => rfl
    | @plain c cs hc _ ih =>
      have hne : c ≠ '\\' := by
        rintro rfl
        exact hback hc
      rw [isQuotedText, ih, Bool.and_true, isQuotedChar_iff]
      · exact hc
      · rintro b cs' rfl
        exact absurd rfl hne
    | escaped hc _ ih => rw [isQuotedText, ih, Bool.and_true, isVisible_iff.mpr hc]

theorem not_dotted_cons {c : Char} (hc : c ∈ ['.', '"', '[']) (hP : ∀ w, P w → Atom w) :
    ¬ Dotted P (c :: cs) := by
  intro h
  obtain ⟨w, hw⟩ := h.head fun w hw => (hP w hw).1
  exact not_atomChar hc ((hP _ hw).2 c List.mem_cons_self)

theorem isLocal_iff : isLocal cs = true ↔ LocalPart cs := by
  simp only [localPart_iff, isLocal, localLimit, Bool.and_eq_true, byteLength_eq,
    decide_eq_true_eq, bne_iff_ne, and_assoc]
  apply and_congr_right'
  apply and_congr_right'
  cases hbetween : between? '"' '"' cs with
  | some inner =>
    obtain rfl := between?_eq_some_iff.mp hbetween
    have hatoms : ¬ Dotted Atom ('"' :: (inner ++ ['"'])) :=
      not_dotted_cons (by decide) fun _ => id
    simp [LocalForm, hatoms, isQuotedText_iff]
  | none =>
    have hquoted := between?_eq_none_iff.mp hbetween
    simp [LocalForm, hquoted, isDotAtom_iff]

theorem isDomain_iff : isDomain cs = true ↔ Domain cs := by
  simp only [domain_iff, isDomain, domainLimit, Bool.and_eq_true, byteLength_eq,
    decide_eq_true_eq]
  apply and_congr_right'
  cases hbetween : between? '[' ']' cs with
  | some inner =>
    obtain rfl := between?_eq_some_iff.mp hbetween
    have hnone : ¬ Dotted Label ('[' :: (inner ++ [']'])) :=
      not_dotted_cons (by decide) fun _ => Label.atom
    simp [DomainForm, hnone, isLiteralChar_iff]
  | none =>
    have hliteral := between?_eq_none_iff.mp hbetween
    have hlabels : (∀ w ∈ fields '.' cs, Label w) ↔ Dotted Label cs :=
      forall_mem_fields_iff fun _ h => h.atom.no_dot
    simp [DomainForm, hliteral, isLabel_iff, hlabels]

theorem not_control_of_quotedText (h : QuotedText cs) : ∀ c ∈ cs, ¬ Control c := by
  induction h with
  | nil => simp
  | plain hc _ ih => exact List.forall_mem_cons.mpr ⟨not_control_of_quotedChar hc, ih⟩
  | escaped hc _ ih =>
    exact List.forall_mem_cons.mpr ⟨by decide,
      List.forall_mem_cons.mpr ⟨not_control_of_escapedChar hc, ih⟩⟩

theorem forall_mem_enclosed (hfirst : Q first) (hlast : Q last) (h : ∀ c ∈ inner, Q c) :
    ∀ c ∈ first :: (inner ++ [last]), Q c := by
  rw [List.forall_mem_cons, List.forall_mem_append, List.forall_mem_singleton]
  exact ⟨hfirst, h, hlast⟩

theorem LocalPart.not_control (h : LocalPart cs) : ∀ c ∈ cs, ¬ Control c := by
  rcases h.form with hatoms | ⟨inner, -, hquoted, rfl⟩
  · exact hatoms.forall_mem (fun _ hw c hc => not_control_of_atomChar (hw.2 c hc)) (by decide)
  · exact forall_mem_enclosed (by decide) (by decide) (not_control_of_quotedText hquoted)

theorem Domain.not_control (h : Domain cs) : ∀ c ∈ cs, ¬ Control c := by
  rcases h.form with hlabels | ⟨inner, hliteral, rfl⟩
  · exact hlabels.forall_mem (fun _ hw c hc => not_control_of_atomChar (hw.atom.2 c hc))
      (by decide)
  · exact forall_mem_enclosed (by decide) (by decide)
      fun c hc => not_control_of_literalChar (hliteral c hc)

end Pieces

end Address

end MailMerge
