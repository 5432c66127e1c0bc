import MailMerge.Proofs.Text.Hexadecimal
import MailMerge.Proofs.Yaml.Plain

/-! # Quoted texts read back

Between quotes a text is read character by character, each written as itself or as an escape, and
gap by gap. A gap is either made of spaces, which stand for themselves, or of ends of lines, after
which the indentation is dropped.
-/

namespace MailMerge.Yaml

variable {c : Char} {t xs rest gap : List Char} {indent fuel : Nat}

section Reading

variable {word : List Char → Option QuotedWord}

theorem quotedFrom_char (hword : word (xs ++ rest) = (word rest).map (.cons c)) (hxs : xs ≠ [])
    (hrest : rest ≠ []) :
    quotedFrom word (fuel + 1) false (xs ++ rest) =
      (quotedFrom word (fuel + 1) false rest).map fun r => (c :: r.1, r.2) := by
  have hne : (xs ++ rest).isEmpty = false := by simp [hxs]
  have hne' : rest.isEmpty = false := by simp [hrest]
  rw [quotedFrom, quotedFrom, hne, hne', hword]
  simp only [Bool.false_and, Bool.or_self, Bool.false_eq_true, if_false]
  cases word rest with
  | none => rfl
  | some w =>
    obtain ⟨text, ending, after⟩ := w
    cases ending with
    | quote => rfl
    | gap =>
      simp only [Option.bind_eq_bind, Option.map_some, Option.bind_some, QuotedWord.cons]
      cases quotedFrom word fuel ((after.takeWhile isGapChar).getLast?.any isBreak)
        (after.dropWhile isGapChar) <;> rfl
    | joined =>
      simp only [Option.bind_eq_bind, Option.map_some, Option.bind_some, QuotedWord.cons]
      cases quotedFrom word fuel ((after.takeWhile isGapChar).getLast?.all isBreak)
        (after.dropWhile isGapChar) <;> rfl

theorem quotedFrom_gap (hword : word (gap ++ rest) = some ⟨[], .gap, gap ++ rest⟩) (hne : gap ≠ [])
    (hgap : ∀ c ∈ gap, isGapChar c = true) (hrest : ∀ c, rest.head? = some c → isGapChar c = false)
    (hlast : ∀ c, gap.getLast? = some c → isBreak c = false) :
    quotedFrom word (fuel + 1) false (gap ++ rest) =
      (quotedFrom word fuel false rest).map fun r => (foldGap gap ++ r.1, r.2) := by
  have hne : (gap ++ rest).isEmpty = false := by simp [hne]
  have hmargin : gap.getLast?.any isBreak = false := by
    rw [Option.any_eq_false]
    exact fun c hc => by simpa using hlast c hc
  rw [quotedFrom, hne, hword]
  simp only [Bool.false_and, Bool.or_self, Bool.false_eq_true, if_false, Option.bind_eq_bind,
    Option.bind_some, takeWhile_run hgap hrest, dropWhile_run hgap hrest, hmargin]
  cases quotedFrom word fuel false rest <;> rfl

theorem quotedFrom_quote (hword : word (c :: rest) = some ⟨[], .quote, rest⟩) :
    quotedFrom word (fuel + 1) false (c :: rest) = some ([], rest) := by
  rw [quotedFrom, hword]
  rfl

end Reading

theorem singleWord_char (hc : c ≠ '\x27') (hgap : isGapChar c = false) :
    singleWord (c :: rest) = (singleWord rest).map (.cons c) := by
  rw [singleWord, if_neg hc, if_neg (by simp [hgap])]
  exact fun cs h => absurd h hc

theorem singleWord_gap (hgap : isGapChar c = true) :
    singleWord (c :: rest) = some ⟨[], .gap, c :: rest⟩ := by
  have hc : c ≠ '\x27' := by
    rintro rfl
    exact absurd hgap (by decide)
  rw [singleWord, if_neg hc, if_pos hgap]
  exact fun cs h => absurd h hc

theorem singleWord_quote (h : rest.head? ≠ some '\x27') :
    singleWord ('\x27' :: rest) = some ⟨[], .quote, rest⟩ := by
  rw [singleWord, if_pos rfl]
  exact fun cs _ hrest => h (by rw [hrest]; rfl)

theorem writeSingle_char (hgap : isGapChar c = false) :
    writeSingle indent false (c :: t) =
      (if c = '\x27' then [c, c] else [c]) ++ writeSingle indent false t := by
  obtain ⟨hspace, hbreak⟩ := not_isGapChar_iff.mp hgap
  have hc : c ≠ ' ' := by
    rintro rfl
    exact absurd hspace (by decide)
  rw [writeSingle, hbreak, if_neg (by decide), if_neg hc, if_neg (by decide)]
  rfl

theorem writeSingle_fresh (ht : ∀ c, t.head? = some c → isGapChar c = false) :
    writeSingle indent true t = spaces indent ++ writeSingle indent false t := by
  cases t with
  | nil => rfl
  | cons c t =>
    obtain ⟨hspace, hbreak⟩ := not_isGapChar_iff.mp (ht c rfl)
    have hc : c ≠ ' ' := by
      rintro rfl
      exact absurd hspace (by decide)
    rw [writeSingle_char (ht c rfl), writeSingle, hbreak, if_neg (by decide), if_neg hc,
      if_pos rfl, List.append_assoc]

theorem writeSingle_spaces (hgap : ∀ c ∈ gap, c = ' ') :
    writeSingle indent false (gap ++ t) = gap ++ writeSingle indent false t := by
  induction gap with
  | nil => rfl
  | cons c gap ih =>
    obtain rfl := hgap c List.mem_cons_self
    rw [List.cons_append, writeSingle, if_neg (by decide), if_pos rfl,
      ih fun d hd => hgap d (List.mem_cons_of_mem _ hd)]
    rfl

theorem writeSingle_breaks (hgap : ∀ c ∈ gap, isBreak c = true) (hne : gap ≠ [])
    (ht : ∀ c, t.head? = some c → isGapChar c = false) :
    writeSingle indent false (gap ++ t) = (gap ++ spaces indent) ++ writeSingle indent false t := by
  have hbreaks : ∀ {gap : List Char}, (∀ c ∈ gap, isBreak c = true) →
      writeSingle indent true (gap ++ t) = gap ++ writeSingle indent true t := by
    intro gap hgap
    induction gap with
    | nil => rfl
    | cons c gap ih =>
      rw [List.cons_append, writeSingle, if_pos (hgap c List.mem_cons_self),
        ih fun d hd => hgap d (List.mem_cons_of_mem _ hd)]
      rfl
  obtain ⟨c, gap, rfl⟩ := List.exists_cons_of_ne_nil hne
  rw [List.cons_append, writeSingle, if_pos (hgap c List.mem_cons_self),
    hbreaks fun d hd => hgap d (List.mem_cons_of_mem _ hd), writeSingle_fresh ht]
  simp

/-- A text that can be written between single quotes. -/
structure IsSingle (t : List Char) : Prop where
  printable : ∀ c ∈ t, isPrintable c = true
  no_line : '\n' ∉ t
  before : anyNeighbours (fun b c => b == ' ' && isAnyBreak c) t = false
  after : anyNeighbours (fun b c => isAnyBreak b && c == ' ') t = false

namespace IsSingle

theorem right (h : IsSingle (xs ++ t)) : IsSingle t where
  printable c hc := h.printable c (List.mem_append_right _ hc)
  no_line hn := h.no_line (List.mem_append_right _ hn)
  before := anyNeighbours_right h.before
  after := anyNeighbours_right h.after

theorem left (h : IsSingle (xs ++ t)) : IsSingle xs where
  printable c hc := h.printable c (List.mem_append_left _ hc)
  no_line hn := h.no_line (List.mem_append_left _ hn)
  before := anyNeighbours_left h.before
  after := anyNeighbours_left h.after

theorem uniform (h : IsSingle gap) (hgap : ∀ c ∈ gap, isGapChar c = true) :
    (∀ c ∈ gap, c = ' ') ∨ ∀ c ∈ gap, isBreak c = true := by
  have hkind : ∀ c ∈ gap, c ≠ ' ' → isBreak c = true := fun c hc hspace => by
    have := hgap c hc
    rw [isGapChar_of_printable (h.printable c hc)] at this
    simpa [hspace] using this
  cases gap with
  | nil => exact .inl (by simp)
  | cons c cs =>
    by_cases hc : c = ' '
    · refine .inl fun d hd => ?_
      refine beq_iff_eq.mp (all_of_handedOn (p := (· == ' ')) (by simp [hc])
        (anyNeighbours_mono h.before fun a _ b hb hab => ?_) d hd)
      simp only [Bool.and_eq_true, Bool.not_eq_true', beq_eq_false_iff_ne] at hab ⊢
      exact ⟨hab.1, by rw [isAnyBreak_of_printable (h.printable b hb)]; exact hkind b hb hab.2⟩
    · refine .inr (all_of_handedOn (hkind c List.mem_cons_self hc)
        (anyNeighbours_mono h.after fun a ha b hb hab => ?_))
      simp only [Bool.and_eq_true, Bool.not_eq_true'] at hab ⊢
      rw [isAnyBreak_of_printable (h.printable a ha), beq_iff_eq]
      refine ⟨hab.1, Classical.byContradiction fun hspace => ?_⟩
      rw [hkind b hb hspace] at hab
      exact absurd hab.2 (by decide)

end IsSingle

theorem foldGap_breaks (hgap : ∀ c ∈ gap, isBreak c = true) (hne : gap ≠ []) (hline : '\n' ∉ gap) :
    foldGap (gap ++ spaces indent) = gap := by
  have hfilter : (gap ++ spaces indent).filter isBreak = gap := by
    rw [List.filter_append, List.filter_eq_self.mpr hgap, List.filter_eq_nil_iff.mpr fun c hc => by
      rw [mem_spaces hc]; decide, List.append_nil]
  obtain ⟨c, gap, rfl⟩ := List.exists_cons_of_ne_nil hne
  rw [foldGap, hfilter]
  exact if_neg fun hc => hline (by rw [hc]; exact List.mem_cons_self)

theorem head_writeSingle (ht : ∀ c, t.head? = some c → isGapChar c = false) :
    ∀ c, (writeSingle indent false t ++ rest).head? = some c → isGapChar c = false := by
  intro c hc
  cases t with
  | nil =>
    cases hc
    decide
  | cons d t =>
    rw [writeSingle_char (ht d rfl)] at hc
    by_cases hd : d = '\x27'
    · rw [if_pos hd] at hc
      cases hc
      exact ht _ rfl
    · rw [if_neg hd] at hc
      cases hc
      exact ht _ rfl

theorem length_le_writeSingle (fresh : Bool) : t.length ≤ (writeSingle indent fresh t).length := by
  fun_induction writeSingle indent fresh t with
  | case1 => simp
  | case2 fresh c cs hc ih => simpa using ih
  | case3 fresh cs hc ih => simpa using ih
  | case4 fresh c cs hc hspace ih =>
    have : 1 ≤ (if c = '\x27' then [c, c] else [c]).length := by split <;> simp
    simp only [List.length_append, List.length_cons] at ih ⊢
    omega

theorem writeSingle_ne_nil : writeSingle indent false t ++ rest ≠ [] := by
  intro hnil
  have hnil := (List.append_eq_nil_iff.mp hnil).1
  have hlength : t.length ≤ (writeSingle indent false t).length := length_le_writeSingle false
  rw [hnil] at hlength
  rw [List.length_eq_zero_iff.mp (Nat.le_zero.mp hlength)] at hnil
  exact absurd hnil (by simp [writeSingle])

theorem quotedFrom_singleGap (hne : gap ≠ []) (hgap : ∀ c ∈ gap, isGapChar c = true)
    (hlast : ∀ c, gap.getLast? = some c → isBreak c = false)
    (ht : ∀ c, t.head? = some c → isGapChar c = false) :
    quotedFrom singleWord (fuel + 1) false (gap ++ (writeSingle indent false t ++ rest)) =
      (quotedFrom singleWord fuel false (writeSingle indent false t ++ rest)).map fun r =>
        (foldGap gap ++ r.1, r.2) := by
  have hword {after : List Char} : singleWord (gap ++ after) = some ⟨[], .gap, gap ++ after⟩ := by
    obtain ⟨c, gap, rfl⟩ := List.exists_cons_of_ne_nil hne
    exact singleWord_gap (hgap c List.mem_cons_self)
  exact quotedFrom_gap hword hne hgap (head_writeSingle ht) hlast

theorem isGapChar_of_indented (hgap : ∀ c ∈ gap, isGapChar c = true) (hindent : 0 < indent) :
    (∀ c ∈ gap ++ spaces indent, isGapChar c = true) ∧
      ∀ c, (gap ++ spaces indent).getLast? = some c → isBreak c = false := by
  constructor
  · intro c hc
    rcases List.mem_append.mp hc with hc | hc
    · exact hgap c hc
    · rw [mem_spaces hc]
      decide
  · intro c hc
    rw [List.getLast?_append, spaces, List.getLast?_replicate, if_neg (Nat.ne_of_gt hindent),
      Option.some_or] at hc
    rw [← Option.some.inj hc]
    decide

theorem quotedFrom_writeSingle (h : IsSingle t) (hindent : 0 < indent)
    (hrest : rest.head? ≠ some '\x27') (hfuel : t.length < fuel) :
    quotedFrom singleWord fuel false (writeSingle indent false t ++ rest) = some (t, rest) := by
  induction hlen : t.length using Nat.strongRecOn generalizing t fuel with
  | _ n ih =>
  obtain ⟨fuel, rfl⟩ : ∃ n, fuel = n + 1 := ⟨fuel - 1, by omega⟩
  subst hlen
  cases t with
  | nil => exact quotedFrom_quote (singleWord_quote hrest)
  | cons c t =>
    by_cases hc : isGapChar c = true
    · obtain ⟨gap, u, heq, hne, hgap, hu⟩ := exists_run_of_head (p := isGapChar)
        (List.cons_ne_nil c t) fun d hd => by cases hd; exact hc
      rw [heq] at h hfuel ih ⊢
      have hlength := List.length_pos_iff.mpr hne
      rw [List.length_append] at hfuel ih
      have hu' := ih u.length (by omega) h.right (show u.length < fuel by omega) rfl
      rcases h.left.uniform hgap with hspace | hbreak
      · have hno_break : ∀ c ∈ gap, isBreak c = false := fun c hc => by
          rw [hspace c hc]
          decide
        rw [writeSingle_spaces hspace, List.append_assoc, quotedFrom_singleGap hne hgap
          (fun c hc => hno_break c (List.mem_of_getLast? hc)) hu, hu',
          foldGap_of_no_break hno_break]
        rfl
      · obtain ⟨hgap', hlast⟩ := isGapChar_of_indented hgap hindent
        rw [writeSingle_breaks hbreak hne hu, List.append_assoc,
          quotedFrom_singleGap (by simp [hne]) hgap' hlast hu, hu',
          foldGap_breaks hbreak hne fun hn => h.no_line (List.mem_append_left _ hn)]
        rfl
    · have hc : isGapChar c = false := by simpa using hc
      have hright : IsSingle t := @IsSingle.right t [c] h
      have ht := ih t.length (by simp) hright (show t.length < fuel + 1 by
        simp at hfuel; omega) rfl
      rw [writeSingle_char hc, List.append_assoc, quotedFrom_char (c := c) ?_ ?_
        writeSingle_ne_nil, ht]
      · rfl
      · split
        · rename_i hquote
          subst hquote
          rfl
        · rename_i hquote
          exact singleWord_char hquote hc
      · split <;> simp

/-- A text between single quotes is read as it was written. -/
theorem readSingle_writeSingle (h : IsSingle t) (hindent : 0 < indent)
    (hrest : rest.head? ≠ some '\x27') :
    readSingle (writeSingle indent false t ++ rest) = some (t, rest) := by
  have hlength : t.length ≤ (writeSingle indent false t).length := length_le_writeSingle false
  exact quotedFrom_writeSingle h hindent hrest (by rw [List.length_append]; omega)

theorem doubleWord_char (hquote : c ≠ '"') (hslash : c ≠ '\\') (hgap : isGapChar c = false) :
    doubleWord (c :: rest) = (doubleWord rest).map (.cons c) := by
  rw [doubleWord, if_neg hquote, if_neg (by simp [hgap]), if_neg hslash]
  all_goals simp [hslash]

theorem doubleWord_quote : doubleWord ('"' :: rest) = some ⟨[], .quote, rest⟩ := by
  rw [doubleWord, if_pos rfl]
  all_goals simp

theorem doubleWord_space : doubleWord (' ' :: rest) = some ⟨[], .gap, ' ' :: rest⟩ := by
  rw [doubleWord, if_neg (by decide), if_pos (by decide)]
  all_goals simp

theorem doubleWord_letter {letter : Char} (hx : letter ≠ 'x') (hu : letter ≠ 'u')
    (hU : letter ≠ 'U') (hbreak : isBreak letter = false) (h : escapedChar? letter = some c) :
    doubleWord ('\\' :: letter :: rest) = (doubleWord rest).map (.cons c) := by
  rw [doubleWord, if_neg (by simp [hbreak]), h]
  · cases doubleWord rest <;> rfl
  all_goals simp [hx, hu, hU]

theorem hexChar?_write {size : Nat} (h : c.toNat < 16 ^ size) :
    hexChar? (Hexadecimal.write Hexadecimal.upper size c.toNat) = some c := by
  rw [hexChar?, Hexadecimal.read?_write_of_lt Hexadecimal.value?_upper h]
  show (if c.toNat.isValidChar then some (Char.ofNat c.toNat) else none) = some c
  rw [if_pos (show c.toNat.isValidChar from c.valid), Char.ofNat_toNat]

theorem escapeChar_cases (c : Char) :
    (∃ letter, escapeChar c = ['\\', letter] ∧ letter ∉ ['x', 'u', 'U'] ∧
        isPrintable letter = true ∧ isBreak letter = false ∧ escapedChar? letter = some c) ∨
      (escapeChar c = [c] ∧ isPrintable c = true ∧ isBreak c = false ∧ c ≠ '"' ∧ c ≠ '\\') ∨
      ∃ mark size, escapeChar c =
          '\\' :: mark :: Hexadecimal.write Hexadecimal.upper size c.toNat ∧
        (mark, size) ∈ [('x', 2), ('u', 4), ('U', 8)] ∧ c.toNat < 16 ^ size := by
  unfold escapeChar
  split
  case h_15 hzero hbell hback htab hline hvertical hfeed hreturn hescape hquote hslash hnext
      hseparator hparagraph =>
    right
    dsimp only
    split
    · rename_i hprint
      have hbreak : isBreak c = false := by
        simp only [isBreak, Bool.or_eq_false_iff, beq_eq_false_iff_ne]
        exact ⟨⟨hline, hseparator⟩, hparagraph⟩
      exact .inl ⟨rfl, hprint, hbreak, hquote, hslash⟩
    · split
      · exact .inr ⟨'x', 2, rfl, by simp, by omega⟩
      · split
        · exact .inr ⟨'u', 4, rfl, by simp, by omega⟩
        · have hlt : c.toNat < 0x110000 := by
            have := c.valid
            simp only [UInt32.isValidChar, Nat.isValidChar] at this
            simp only [Char.toNat]
            omega
          exact .inr ⟨'U', 8, rfl, by simp, by omega⟩
  all_goals exact .inl ⟨_, rfl, by decide, by decide, by decide, rfl⟩

theorem doubleWord_escapeChar (hc : c ≠ ' ') :
    doubleWord (escapeChar c ++ rest) = (doubleWord rest).map (.cons c) := by
  rcases escapeChar_cases c with ⟨letter, heq, hmark, -, hbreak, hletter⟩ |
    ⟨heq, hprint, hbreak, hquote, hslash⟩ | ⟨mark, size, heq, hmark, hlt⟩
  · simp only [List.mem_cons, List.not_mem_nil, or_false, not_or] at hmark
    rw [heq]
    exact doubleWord_letter hmark.1 hmark.2.1 hmark.2.2 hbreak hletter
  · rw [heq]
    refine doubleWord_char hquote hslash ?_
    rw [isGapChar_of_printable hprint, hbreak, Bool.or_false, beq_eq_false_iff_ne]
    exact hc
  · have hdigits := hexChar?_write hlt
    have hread {digits : List Char} (h : hexChar? digits = some c) :
        (do return (← doubleWord rest).cons (← hexChar? digits)) =
          (doubleWord rest).map (.cons c) := by
      rw [h]
      cases doubleWord rest <;> rfl
    rw [heq]
    simp only [List.mem_cons, Prod.mk.injEq, List.not_mem_nil, or_false] at hmark
    rcases hmark with ⟨rfl, rfl⟩ | ⟨rfl, rfl⟩ | ⟨rfl, rfl⟩
    · exact (doubleWord.eq_2 ..).trans (hread hdigits)
    · exact (doubleWord.eq_3 ..).trans (hread hdigits)
    · exact (doubleWord.eq_4 ..).trans (hread hdigits)

theorem escapeChar_ne_nil (c : Char) : escapeChar c ≠ [] := by
  rcases escapeChar_cases c with ⟨_, heq, -⟩ | ⟨heq, -⟩ | ⟨_, _, heq, -⟩ <;> simp [heq]

theorem flatMap_escapeChar_spaces (hgap : ∀ c ∈ gap, c = ' ') :
    (gap ++ t).flatMap escapeChar = gap ++ t.flatMap escapeChar := by
  induction gap with
  | nil => rfl
  | cons c gap ih =>
    obtain rfl := hgap c List.mem_cons_self
    rw [List.cons_append, List.flatMap_cons, ih fun d hd => hgap d (List.mem_cons_of_mem _ hd)]
    rfl

theorem head_flatMap_escapeChar (ht : t.head? ≠ some ' ') :
    ∀ c, (t.flatMap escapeChar ++ '"' :: rest).head? = some c → isGapChar c = false := by
  intro c hc
  cases t with
  | nil =>
    cases hc
    decide
  | cons d t =>
    have hd : d ≠ ' ' := fun hd => ht (by rw [hd]; rfl)
    rcases escapeChar_cases d with ⟨_, heq, -⟩ | ⟨heq, hprint, hbreak, -⟩ | ⟨_, _, heq, -⟩
    · rw [List.flatMap_cons, heq] at hc
      cases hc
      decide
    · rw [List.flatMap_cons, heq] at hc
      cases hc
      rw [isGapChar_of_printable hprint, hbreak, Bool.or_false, beq_eq_false_iff_ne]
      exact hd
    · rw [List.flatMap_cons, heq] at hc
      cases hc
      decide

theorem quotedFrom_escapes (hfuel : t.length < fuel) :
    quotedFrom doubleWord fuel false (t.flatMap escapeChar ++ '"' :: rest) = some (t, rest) := by
  induction hlen : t.length using Nat.strongRecOn generalizing t fuel with
  | _ n ih =>
  obtain ⟨fuel, rfl⟩ : ∃ n, fuel = n + 1 := ⟨fuel - 1, by omega⟩
  subst hlen
  cases t with
  | nil => exact quotedFrom_quote doubleWord_quote
  | cons c t =>
    by_cases hc : c = ' '
    · obtain ⟨gap, u, heq, hne, hgap, hu⟩ := exists_run_of_head (p := (· == ' '))
        (List.cons_ne_nil c t) fun d hd => by cases hd; simp [hc]
      rw [heq] at hfuel ih ⊢
      have hlength := List.length_pos_iff.mpr hne
      rw [List.length_append] at hfuel ih
      have hspace : ∀ c ∈ gap, c = ' ' := fun c hc => by simpa using hgap c hc
      have hno_break : ∀ c ∈ gap, isBreak c = false := fun c hc => by
        rw [hspace c hc]
        decide
      have hword {w : List Char} : doubleWord (gap ++ w) = some ⟨[], .gap, gap ++ w⟩ := by
        obtain ⟨a, g, rfl⟩ := List.exists_cons_of_ne_nil hne
        rw [hspace a List.mem_cons_self]
        exact doubleWord_space
      have hgaps : ∀ c ∈ gap, isGapChar c = true := fun c hc => by
        rw [hspace c hc]
        decide
      have hhead : u.head? ≠ some ' ' := fun hu' => absurd (hu _ hu') (by decide)
      rw [flatMap_escapeChar_spaces hspace, List.append_assoc, quotedFrom_gap hword hne hgaps
        (head_flatMap_escapeChar hhead) fun c hc => hno_break c (List.mem_of_getLast? hc),
        ih u.length (by omega) (show u.length < fuel by omega) rfl, foldGap_of_no_break hno_break]
      rfl
    · rw [List.flatMap_cons, List.append_assoc, quotedFrom_char (doubleWord_escapeChar hc)
        (escapeChar_ne_nil c) (by simp), ih t.length (by simp) (show t.length < fuel + 1 by
        simp at hfuel; omega) rfl]
      rfl

theorem length_le_escapes (t : List Char) : t.length ≤ (t.flatMap escapeChar).length := by
  induction t with
  | nil => exact Nat.le_refl _
  | cons c t ih =>
    have := List.length_pos_iff.mpr (escapeChar_ne_nil c)
    rw [List.flatMap_cons, List.length_append, List.length_cons]
    omega

/-- A text between double quotes is read as it was written, whatever its characters are. -/
theorem readDouble_escapes (t rest : List Char) :
    readDouble (t.flatMap escapeChar ++ '"' :: rest) = some (t, rest) := by
  have hlength := length_le_escapes t
  exact quotedFrom_escapes (by rw [List.length_append]; omega)

end MailMerge.Yaml
