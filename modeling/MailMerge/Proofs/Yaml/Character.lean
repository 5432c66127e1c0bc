import MailMerge.Yaml.Style
import MailMerge.Yaml.Token

/-! # Characters of written texts

Everything that is written is printable. So reading changes none of it, the gaps between words are
spaces or ends of lines, and neighbours in a part of a text are neighbours in the text.
-/

namespace MailMerge.Yaml

variable {c d : Char} {cs ds xs ys : List Char} {k : Nat}

/-- What holds of every character of a text is decided along the text, not over all characters. -/
instance decidableForallMem (p : Char → Bool) (cs : List Char) :
    Decidable (∀ c ∈ cs, p c = true) :=
  decidable_of_iff (cs.all p = true) List.all_eq_true

theorem isAllowed_of_isPrintable (h : isPrintable c = true) : isAllowed c = true := by
  simp only [isPrintable, Bool.or_eq_true, Bool.and_eq_true] at h
  simp only [isAllowed, Bool.or_eq_true]
  rcases h with h | ⟨-, h⟩
  · exact .inl (.inl (.inl (.inr h)))
  · exact .inr h

theorem ne_of_isPrintable (h : isPrintable c = true) (hd : isPrintable d = false) : c ≠ d := by
  rintro rfl
  exact absurd h (by simp [hd])

theorem unifyBreaks_of_printable (h : ∀ c ∈ cs, isPrintable c = true) : unifyBreaks cs = cs := by
  fun_induction unifyBreaks cs with
  | case1 => rfl
  | case2 cs ih => exact absurd rfl (ne_of_isPrintable (h '\r' (by simp)) (by decide))
  | case3 c cs _ ih =>
    have hc := h c (by simp)
    rw [if_neg, ih fun d hd => h d (List.mem_cons_of_mem _ hd)]
    rintro (rfl | rfl)
    · exact absurd hc (by decide)
    · exact absurd hc (by decide)

theorem isAnyBreak_of_printable (h : isPrintable c = true) : isAnyBreak c = isBreak c := by
  have hr : (c == '\r') = false := beq_false_of_ne (ne_of_isPrintable h (by decide))
  have hn : (c == nextLine) = false := beq_false_of_ne (ne_of_isPrintable h (by decide))
  rw [isAnyBreak, hr, hn, Bool.or_false, Bool.or_false]

theorem isTabOrSpace_of_printable (h : isPrintable c = true) : isTabOrSpace c = (c == ' ') := by
  have ht : (c == '\t') = false := beq_false_of_ne (ne_of_isPrintable h (by decide))
  rw [isTabOrSpace, ht, Bool.or_false]

theorem isGapChar_of_printable (h : isPrintable c = true) :
    isGapChar c = (c == ' ' || isBreak c) := by
  rw [isGapChar, isTabOrSpace_of_printable h]

theorem isBreak_space : isBreak ' ' = false := by decide

theorem not_isGapChar_iff : isGapChar c = false ↔ isTabOrSpace c = false ∧ isBreak c = false := by
  simp [isGapChar]

def isWordChar (c : Char) : Bool := c.isAlpha || c == '_'

theorem ne_of_isWordChar (h : isWordChar c = true) (hd : isWordChar d = false) : c ≠ d := by
  rintro rfl
  exact absurd h (by simp [hd])

theorem isPrintable_of_isWordChar (h : isWordChar c = true) : isPrintable c = true := by
  delta isWordChar Char.isAlpha Char.isUpper Char.isLower at h
  simp only [Bool.or_eq_true, Bool.and_eq_true, decide_eq_true_eq, beq_iff_eq] at h
  have hrange : 0x20 ≤ c.toNat ∧ c.toNat ≤ 0x7E := by
    rcases h with (⟨h₁, h₂⟩ | ⟨h₁, h₂⟩) | rfl
    · exact ⟨Nat.le_trans (by decide) (UInt32.le_iff_toNat_le.mp h₁),
        Nat.le_trans (UInt32.le_iff_toNat_le.mp h₂) (by decide)⟩
    · exact ⟨Nat.le_trans (by decide) (UInt32.le_iff_toNat_le.mp h₁),
        Nat.le_trans (UInt32.le_iff_toNat_le.mp h₂) (by decide)⟩
    · decide
  have hmark : c ≠ byteOrderMark := by
    rintro rfl
    exact absurd hrange.2 (by decide)
  simp only [isPrintable, Bool.or_eq_true, Bool.and_eq_true, bne_iff_ne, inRanges_iff]
  exact .inr ⟨hmark, (0x20, 0x7E), .head _, hrange⟩

theorem not_isGapChar_of_isWordChar (h : isWordChar c = true) : isGapChar c = false := by
  rw [isGapChar_of_printable (isPrintable_of_isWordChar h)]
  simp only [isBreak, Bool.or_eq_false_iff, beq_eq_false_iff_ne]
  exact ⟨ne_of_isWordChar h (by decide), ⟨ne_of_isWordChar h (by decide),
    ne_of_isWordChar h (by decide)⟩, ne_of_isWordChar h (by decide)⟩

/-- A text that is at its end or begins with a token: neither with a gap nor with what a gap may
hold. -/
def startsToken (cs : List Char) : Bool :=
  cs.head?.all fun c => !isGapChar c && c != '#' && c != byteOrderMark

theorem not_isGapChar_of_startsToken (h : startsToken cs = true) (hc : cs.head? = some c) :
    isGapChar c = false := by
  rw [startsToken, hc, Option.all_some] at h
  simp only [Bool.and_eq_true, Bool.not_eq_true'] at h
  exact h.1.1

section Runs

variable {p : Char → Bool}

theorem takeWhile_run (h : ∀ c ∈ xs, p c = true) (hstop : ∀ c, ys.head? = some c → p c = false) :
    (xs ++ ys).takeWhile p = xs := by
  rw [List.takeWhile_append_of_pos h]
  cases ys with
  | nil => simp
  | cons c ys => rw [List.takeWhile_cons_of_neg (by simp [hstop c rfl]), List.append_nil]

theorem dropWhile_run (h : ∀ c ∈ xs, p c = true) (hstop : ∀ c, ys.head? = some c → p c = false) :
    (xs ++ ys).dropWhile p = ys := by
  rw [List.dropWhile_append_of_pos h]
  cases ys with
  | nil => rfl
  | cons c ys => rw [List.dropWhile_cons_of_neg (by simp [hstop c rfl])]

theorem exists_run (p : Char → Bool) (cs : List Char) :
    ∃ xs ys, cs = xs ++ ys ∧ (∀ c ∈ xs, p c = true) ∧ ∀ c, ys.head? = some c → p c = false := by
  refine ⟨cs.takeWhile p, cs.dropWhile p, List.takeWhile_append_dropWhile.symm,
    List.all_eq_true.mp List.all_takeWhile, fun c hc => ?_⟩
  have h := List.head?_dropWhile_not p cs
  rw [hc] at h
  exact h

theorem exists_run_of_head {p : Char → Bool} {cs : List Char} (hne : cs ≠ [])
    (hhead : ∀ c, cs.head? = some c → p c = true) :
    ∃ xs ys, cs = xs ++ ys ∧ xs ≠ [] ∧ (∀ c ∈ xs, p c = true) ∧
      ∀ c, ys.head? = some c → p c = false := by
  obtain ⟨xs, ys, rfl, hxs, hys⟩ := exists_run p cs
  refine ⟨xs, ys, rfl, ?_, hxs, hys⟩
  rintro rfl
  obtain ⟨c, ys, rfl⟩ := List.exists_cons_of_ne_nil hne
  have hc := hys c rfl
  rw [hhead c rfl] at hc
  exact absurd hc (by decide)

end Runs

section Neighbours

variable {p : Char → Char → Bool}

theorem anyNeighbours_cons :
    anyNeighbours p (c :: d :: cs) = (p c d || anyNeighbours p (d :: cs)) := rfl

theorem anyNeighbours_tail (h : anyNeighbours p (c :: cs) = false) :
    anyNeighbours p cs = false := by
  cases cs with
  | nil => rfl
  | cons d cs =>
    rw [anyNeighbours_cons, Bool.or_eq_false_iff] at h
    exact h.2

theorem anyNeighbours_right (h : anyNeighbours p (xs ++ ys) = false) :
    anyNeighbours p ys = false := by
  induction xs with
  | nil => exact h
  | cons x xs ih => exact ih (anyNeighbours_tail h)

theorem anyNeighbours_left (h : anyNeighbours p (xs ++ ys) = false) :
    anyNeighbours p xs = false := by
  induction xs with
  | nil => rfl
  | cons x xs ih =>
    cases xs with
    | nil => rfl
    | cons y xs =>
      rw [List.cons_append, List.cons_append, anyNeighbours_cons, Bool.or_eq_false_iff] at h
      rw [anyNeighbours_cons, Bool.or_eq_false_iff]
      exact ⟨h.1, ih h.2⟩

theorem not_neighbours (h : anyNeighbours p (xs ++ c :: d :: ys) = false) : p c d = false := by
  have h := anyNeighbours_right h
  rw [anyNeighbours_cons, Bool.or_eq_false_iff] at h
  exact h.1

theorem not_neighbours_append (h : anyNeighbours p (xs ++ ys) = false) (hc : xs.getLast? = some c)
    (hd : ys.head? = some d) : p c d = false := by
  obtain ⟨xs, rfl⟩ := List.getLast?_eq_some_iff.mp hc
  obtain ⟨ys, rfl⟩ := List.head?_eq_some_iff.mp hd
  rw [List.append_assoc] at h
  exact not_neighbours h

theorem anyNeighbours_mono {q : Char → Char → Bool} (h : anyNeighbours p cs = false)
    (hqp : ∀ c ∈ cs, ∀ d ∈ cs, q c d = true → p c d = true) : anyNeighbours q cs = false := by
  induction cs with
  | nil => rfl
  | cons c cs ih =>
    cases cs with
    | nil => rfl
    | cons d cs =>
      rw [anyNeighbours_cons, Bool.or_eq_false_iff] at h ⊢
      refine ⟨?_, ih h.2 fun a ha b hb => hqp a (List.mem_cons_of_mem _ ha) b
        (List.mem_cons_of_mem _ hb)⟩
      by_cases hq : q c d = true
      · rw [hqp c (by simp) d (by simp) hq] at h
        exact absurd h.1 (by decide)
      · simpa using hq

theorem all_of_handedOn {p : Char → Bool} (hc : p c = true)
    (h : anyNeighbours (fun b d => p b && !p d) (c :: cs) = false) : ∀ d ∈ c :: cs, p d = true := by
  induction cs generalizing c with
  | nil => simpa using hc
  | cons d cs ih =>
    rw [anyNeighbours_cons, Bool.or_eq_false_iff, hc, Bool.true_and, Bool.not_eq_false'] at h
    intro x hx
    rcases List.mem_cons.mp hx with rfl | hx
    · exact hc
    · exact ih h.1 h.2 x hx

end Neighbours

theorem mem_spaces (h : c ∈ spaces k) : c = ' ' := List.eq_of_mem_replicate h

theorem spaces_succ : spaces (k + 1) = ' ' :: spaces k := rfl

theorem length_spaces : (spaces k).length = k := List.length_replicate

theorem columnAfter_append (n : Nat) (cs ds : List Char) :
    columnAfter n (cs ++ ds) = columnAfter (columnAfter n cs) ds :=
  List.foldl_append

theorem columnAfter_cons (n : Nat) (c : Char) (cs : List Char) :
    columnAfter n (c :: cs) = columnAfter (if isBreak c then 0 else n + 1) cs := rfl

theorem columnAfter_of_no_break (n : Nat) (h : ∀ c ∈ cs, isBreak c = false) :
    columnAfter n cs = n + cs.length := by
  induction cs generalizing n with
  | nil => rfl
  | cons c cs ih =>
    rw [columnAfter_cons, h c List.mem_cons_self, ih _ fun d hd => h d (List.mem_cons_of_mem _ hd),
      List.length_cons]
    simp
    omega

theorem columnAfter_spaces (n k : Nat) : columnAfter n (spaces k) = n + k := by
  rw [columnAfter_of_no_break n fun c hc => by rw [mem_spaces hc]; exact isBreak_space,
    length_spaces]

theorem columnAfter_line (n k : Nat) : columnAfter n ('\n' :: spaces k) = k := by
  rw [columnAfter_cons, show isBreak '\n' = true by decide, if_pos rfl, columnAfter_spaces,
    Nat.zero_add]

theorem Cursor.moveTo_append (line column : Nat) (xs ys : List Char) :
    Cursor.moveTo ⟨xs ++ ys, line, column⟩ ys =
      ⟨ys, line + xs.countP isBreak, columnAfter column xs⟩ := by
  have hpassed : ∀ (p : Cursor), xs.foldl (fun q c => q.after c) p =
      ⟨p.rest, p.line + xs.countP isBreak, columnAfter p.column xs⟩ := by
    induction xs with
    | nil => intro p; rfl
    | cons c xs ih =>
      intro p
      rw [List.foldl_cons, ih, columnAfter_cons, List.countP_cons, Cursor.after]
      split
      · simp only [Cursor.mk.injEq, true_and, and_true]
        omega
      · simp
  have htake : (xs ++ ys).take ((xs ++ ys).length - ys.length) = xs := by
    rw [List.length_append, Nat.add_sub_cancel, List.take_left']
    rfl
  simp only [Cursor.moveTo, htake, hpassed]

end MailMerge.Yaml
