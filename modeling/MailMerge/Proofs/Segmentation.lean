import MailMerge.Substitution

/-! # The one segmentation of a document

A document is cut into literals and tokens so that no token starts inside a literal. There is one
such segmentation, it depends on the document alone, and substitution copies its literals and
puts a value in the place of each token.
-/

namespace MailMerge

/-- A token starts at position `i` of the text. -/
def TokenAt (text : List Char) (i : Nat) : Prop :=
  ∃ p : Placeholder, p.tokenChars <+: text.drop i

/-- A text in pieces: literals, each followed by a token, and one more literal. -/
structure Segmentation where
  parts : List (List Char × Placeholder)
  last : List Char

namespace Segmentation

def covered (parts : List (List Char × Placeholder)) : List Char :=
  parts.flatMap fun e => e.1 ++ e.2.tokenChars

def text (s : Segmentation) : List Char := covered s.parts ++ s.last

/-- The pieces put together again, with the values of an email in place of the tokens. -/
def fill (f : Fragments) (s : Segmentation) : List Char :=
  (s.parts.flatMap fun e => e.1 ++ ((f.get? e.2).getD "").toList) ++ s.last

/-- The pieces are those of `doc`, and no token starts in `doc` inside a literal. -/
structure Cuts (s : Segmentation) (doc : List Char) : Prop where
  text_eq : s.text = doc
  not_inside : ∀ before literal p after, s.parts = before ++ (literal, p) :: after →
    ∀ i < literal.length, ¬ TokenAt doc ((covered before).length + i)
  not_inside_last : ∀ i < s.last.length, ¬ TokenAt doc ((covered s.parts).length + i)

/-- Each token is the first one to start in what remains after the token before it. -/
def FirstTaken : List (List Char × Placeholder) → List Char → Prop
  | [], last => ∀ i, ¬ TokenAt last i
  | e :: rest, last =>
    (∀ i < e.1.length, ¬ TokenAt (covered (e :: rest) ++ last) i) ∧ FirstTaken rest last

theorem not_tokenAt_of_length_le {doc : List Char} {i : Nat} (h : doc.length ≤ i) :
    ¬ TokenAt doc i := by
  rintro ⟨p, hp⟩
  rw [List.drop_of_length_le h, List.prefix_nil] at hp
  exact p.tokenChars_ne_nil hp

theorem tokenAt_append_iff {xs doc : List Char} {i : Nat} :
    TokenAt (xs ++ doc) (xs.length + i) ↔ TokenAt doc i := by
  simp only [TokenAt, List.drop_append, List.drop_of_length_le (Nat.le_add_right xs.length i),
    List.nil_append, Nat.add_sub_cancel_left]

@[simp] theorem covered_nil : covered [] = [] := rfl

@[simp] theorem covered_cons (e : List Char × Placeholder)
    (rest : List (List Char × Placeholder)) :
    covered (e :: rest) = e.1 ++ e.2.tokenChars ++ covered rest := by
  simp [covered]

/-- Behind its first literal and token, a document is cut like the rest of it. -/
theorem tokenAt_covered_cons_iff {e : List Char × Placeholder}
    {before rest : List (List Char × Placeholder)} {last : List Char} {i : Nat} :
    TokenAt (covered (e :: rest) ++ last) ((covered (e :: before)).length + i) ↔
      TokenAt (covered rest ++ last) ((covered before).length + i) := by
  rw [covered_cons, covered_cons, List.length_append, List.append_assoc _ (covered rest),
    Nat.add_assoc, tokenAt_append_iff]

theorem firstTaken_of_cuts {parts : List (List Char × Placeholder)} {last : List Char}
    (h : Cuts ⟨parts, last⟩ (covered parts ++ last)) : FirstTaken parts last := by
  obtain ⟨-, hin, hlast⟩ := h
  induction parts with
  | nil =>
    intro i
    rcases Nat.lt_or_ge i last.length with hi | hi
    · simpa using hlast i hi
    · exact not_tokenAt_of_length_le hi
  | cons e rest ih =>
    refine ⟨fun i hi => ?_, ih ?_ ?_⟩
    · simpa using hin [] e.1 e.2 rest rfl i hi
    · intro before literal p after heq i hi
      rw [← tokenAt_covered_cons_iff (e := e)]
      exact hin (e :: before) literal p after (congrArg (e :: ·) heq) i hi
    · intro i hi
      rw [← tokenAt_covered_cons_iff (e := e)]
      exact hlast i hi

theorem cuts_of_firstTaken {parts : List (List Char × Placeholder)} {last : List Char}
    (h : FirstTaken parts last) : Cuts ⟨parts, last⟩ (covered parts ++ last) := by
  induction parts with
  | nil =>
    refine ⟨rfl, fun before _ _ after heq => ?_, fun i _ => ?_⟩
    · simp at heq
    · simpa using h i
  | cons e rest ih =>
    obtain ⟨hhead, hrest⟩ := h
    obtain ⟨-, hin, hlast⟩ := ih hrest
    refine ⟨rfl, fun before literal p after heq i hi => ?_, fun i hi => ?_⟩
    · rcases List.cons_eq_append_iff.mp heq with ⟨rfl, hcons⟩ | ⟨before', rfl, htail⟩
      · obtain ⟨rfl, rfl⟩ := List.cons.inj hcons
        simpa using hhead i hi
      · rw [tokenAt_covered_cons_iff]
        exact hin before' literal p after htail i hi
    · rw [tokenAt_covered_cons_iff]
      exact hlast i hi

/-- No token starts inside a literal exactly if after each token the next one taken is the first
to start in what remains. -/
theorem cuts_iff_firstTaken {s : Segmentation} {doc : List Char} :
    s.Cuts doc ↔ s.text = doc ∧ FirstTaken s.parts s.last := by
  constructor
  · intro h
    have heq := h.text_eq
    subst heq
    exact ⟨rfl, firstTaken_of_cuts h⟩
  · rintro ⟨rfl, h⟩
    exact cuts_of_firstTaken h

theorem tokenAt_length (e : List Char × Placeholder) (rest : List (List Char × Placeholder))
    (last : List Char) : TokenAt (covered (e :: rest) ++ last) e.1.length := by
  refine ⟨e.2, ?_⟩
  rw [covered_cons, List.append_assoc, List.append_assoc, List.drop_left]
  exact List.prefix_append _ _

theorem eq_of_firstTaken {parts parts' : List (List Char × Placeholder)} {last last' : List Char}
    (h : FirstTaken parts last) (h' : FirstTaken parts' last')
    (heq : covered parts ++ last = covered parts' ++ last') : parts = parts' ∧ last = last' := by
  induction parts generalizing parts' with
  | nil =>
    cases parts' with
    | nil => exact ⟨rfl, heq⟩
    | cons e' rest' =>
      have ht := tokenAt_length e' rest' last'
      rw [← heq] at ht
      exact absurd ht (h _)
  | cons e rest ih =>
    have ht := tokenAt_length e rest last
    cases parts' with
    | nil =>
      rw [heq] at ht
      exact absurd ht (h' _)
    | cons e' rest' =>
      have ht' := tokenAt_length e' rest' last'
      have hlen : e.1.length = e'.1.length := by
        rcases Nat.lt_trichotomy e.1.length e'.1.length with hlt | hlen | hlt
        · rw [heq] at ht
          exact absurd ht (h'.1 _ hlt)
        · exact hlen
        · rw [← heq] at ht'
          exact absurd ht' (h.1 _ hlt)
      rw [covered_cons, covered_cons] at heq
      simp only [List.append_assoc] at heq
      obtain ⟨hlit, heq⟩ := List.append_inj heq hlen
      have htok : e.2 = e'.2 := by
        have hp := List.prefix_append e.2.tokenChars (covered rest ++ last)
        rw [heq] at hp
        rcases List.prefix_or_prefix_of_prefix hp (List.prefix_append _ _) with hp | hp
        · exact Placeholder.eq_of_prefix_tokenChars hp
        · exact (Placeholder.eq_of_prefix_tokenChars hp).symm
      rw [htok] at heq
      obtain ⟨rfl, rfl⟩ := ih h.2 h'.2 (List.append_cancel_left heq)
      exact ⟨by rw [Prod.ext hlit htok], rfl⟩

def consLetter (c : Char) : Segmentation → Segmentation
  | ⟨[], last⟩ => ⟨[], c :: last⟩
  | ⟨(literal, p) :: rest, last⟩ => ⟨(c :: literal, p) :: rest, last⟩

def consToken (p : Placeholder) (s : Segmentation) : Segmentation := ⟨([], p) :: s.parts, s.last⟩

def ofPieces : List Piece → Segmentation
  | [] => ⟨[], []⟩
  | .letter c :: ps => (ofPieces ps).consLetter c
  | .slot p :: ps => (ofPieces ps).consToken p

theorem text_consLetter (c : Char) (s : Segmentation) : (s.consLetter c).text = c :: s.text := by
  rcases s with ⟨_ | ⟨e, rest⟩, last⟩ <;> simp [consLetter, text]

theorem text_consToken (p : Placeholder) (s : Segmentation) :
    (s.consToken p).text = p.tokenChars ++ s.text := by
  simp [consToken, text]

theorem fill_consLetter (f : Fragments) (c : Char) (s : Segmentation) :
    (s.consLetter c).fill f = c :: s.fill f := by
  rcases s with ⟨_ | ⟨e, rest⟩, last⟩ <;> simp [consLetter, fill]

theorem fill_ofPieces (f : Fragments) (ps : List Piece) :
    (ofPieces ps).fill f = ps.flatMap (Piece.fill f) := by
  induction ps with
  | nil => rfl
  | cons piece ps ih =>
    cases piece with
    | letter c => simp [ofPieces, fill_consLetter, Piece.fill, ih]
    | slot p =>
      rw [List.flatMap_cons, ← ih]
      simp [ofPieces, consToken, fill, Piece.fill, Fragments.textFor]

theorem firstTaken_consLetter {c : Char} {s : Segmentation} (h : FirstTaken s.parts s.last)
    (hc : ¬ TokenAt (c :: s.text) 0) :
    FirstTaken (s.consLetter c).parts (s.consLetter c).last := by
  rcases s with ⟨_ | ⟨e, rest⟩, last⟩
  · rintro (_ | i)
    · exact hc
    · exact h i
  · refine ⟨?_, h.2⟩
    rintro (_ | i) hi
    · simpa [text, consLetter] using hc
    · have ht := h.1 i (by simpa using hi)
      simpa [TokenAt, consLetter] using ht

end Segmentation

open Segmentation

/-- Cutting a document finds its segmentation. -/
theorem ofPieces_cut (doc : List Char) :
    (ofPieces (cut 0 doc)).text = doc ∧
      FirstTaken (ofPieces (cut 0 doc)).parts (ofPieces (cut 0 doc)).last := by
  induction hn : doc.length using Nat.strongRecOn generalizing doc with
  | ind n ih =>
    subst hn
    cases doc with
    | nil => exact ⟨rfl, fun i => not_tokenAt_of_length_le (Nat.zero_le i)⟩
    | cons c cs =>
      cases hp : Placeholder.startOf? (c :: cs) with
      | none =>
        obtain ⟨htext, hfirst⟩ := ih cs.length (Nat.lt_succ_self _) cs rfl
        rw [cut_of_startOf?_eq_none hp, ofPieces]
        refine ⟨by rw [text_consLetter, htext], firstTaken_consLetter hfirst ?_⟩
        rw [htext]
        rintro ⟨p, ht⟩
        exact Placeholder.startOf?_eq_none_iff.mp hp p ht
      | some p =>
        obtain ⟨rest, hrest⟩ := Placeholder.startOf?_eq_some_iff.mp hp
        have hlt : rest.length < (c :: cs).length := by
          have hpos := List.length_pos_iff.mpr p.tokenChars_ne_nil
          rw [← hrest, List.length_append]
          omega
        obtain ⟨htext, hfirst⟩ := ih rest.length hlt rest rfl
        rw [cut_of_startOf?_eq_some hp, ← hrest, List.drop_left, ofPieces]
        refine ⟨by rw [text_consToken, htext], fun i hi => ?_, hfirst⟩
        exact absurd hi (Nat.not_lt_zero i)

/-- A document has exactly one segmentation: the one in which, after each token, the next one taken
is the first to start in what remains. Whatever the values of an email are, substitution copies its
literals and puts the values in the place of its tokens. -/
theorem substitute_eq_fill (html : String) :
    ∃ s : Segmentation, (∀ s' : Segmentation, s'.Cuts html.toList ↔ s' = s) ∧
      (∀ s' : Segmentation, s'.Cuts html.toList ↔
        s'.text = html.toList ∧ FirstTaken s'.parts s'.last) ∧
      ∀ f : Fragments, (substitute html f).toList = s.fill f := by
  obtain ⟨htext, hfirst⟩ := ofPieces_cut html.toList
  refine ⟨ofPieces (pieces html), fun s' => ⟨fun hs' => ?_, ?_⟩, fun _ => cuts_iff_firstTaken, ?_⟩
  · obtain ⟨htext', hfirst'⟩ := cuts_iff_firstTaken.mp hs'
    obtain ⟨hparts, hlast⟩ := eq_of_firstTaken hfirst' hfirst (htext'.trans htext.symm)
    cases s'
    subst hparts hlast
    rfl
  · rintro rfl
    exact cuts_iff_firstTaken.mpr ⟨htext, hfirst⟩
  · intro f
    rw [fill_ofPieces, substitute, String.toList_ofList]

end MailMerge
