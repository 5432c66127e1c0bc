import MailMerge.Proofs.Yaml.Character
import MailMerge.Yaml.Scalar

/-! # Plain texts read back

A text that is written plain consists of words with spaces between them. It is read word by word,
and the next line ends it, as that line is not indented as far.
-/

namespace MailMerge.Yaml

variable {c : Char} {w t rest gap : List Char} {indent column fuel k : Nat}

theorem plainWord_gap (h : ∀ c, rest.head? = some c → isGapChar c = true) :
    plainWord false rest = some ([], rest) := by
  cases rest with
  | nil => rfl
  | cons c cs => rw [plainWord, if_pos (h c rfl)]

theorem plainWord_colon (h : startsGap rest = true) :
    plainWord false (':' :: rest) = some ([], ':' :: rest) := by
  rw [plainWord, if_neg (by decide), if_neg (by simp), if_pos (by simp [h])]

/-- A word goes on up to a place where none can go on, unless it ends with a colon. -/
theorem plainWord_run (hw : ∀ c ∈ w, isGapChar c = false)
    (hstop : plainWord false rest = some ([], rest))
    (hlast : startsGap rest = true → w.getLast? ≠ some ':') :
    plainWord false (w ++ rest) = some (w, rest) := by
  induction w with
  | nil => exact hstop
  | cons c w ih =>
    have htail := ih (fun d hd => hw d (List.mem_cons_of_mem _ hd)) fun hgap hcolon =>
      hlast hgap (by rw [List.getLast?_cons, hcolon]; rfl)
    have hcolon : (c == ':' && startsGap (w ++ rest)) = false := by
      cases w with
      | nil =>
        rw [Bool.and_eq_false_iff, beq_eq_false_iff_ne]
        rcases hgap : startsGap rest with _ | _
        · exact .inr hgap
        · exact .inl fun hc => hlast hgap (by rw [hc]; rfl)
      | cons d w =>
        have hd := hw d (List.mem_cons_of_mem _ List.mem_cons_self)
        rw [List.cons_append, startsGap, List.head?_cons, Option.all_some, hd, Bool.and_false]
    rw [List.cons_append, plainWord, if_neg (by simp [hw c List.mem_cons_self]), if_neg (by simp),
      if_neg (by simp [hcolon]), htail]
    rfl

theorem foldGap_of_no_break (h : ∀ c ∈ gap, isBreak c = false) : foldGap gap = gap := by
  have hnone : gap.filter isBreak = [] := by
    rw [List.filter_eq_nil_iff]
    exact fun c hc => by simp [h c hc]
  rw [foldGap, hnone]

theorem hasEarlyTab_eq_false (h : '\t' ∉ gap) (fresh : Bool) (column : Nat) :
    hasEarlyTab indent fresh column gap = false := by
  induction gap generalizing fresh column with
  | nil => rfl
  | cons c cs ih =>
    rw [List.mem_cons, not_or] at h
    have htab : (c == '\t') = false := beq_false_of_ne fun hc => h.1 hc.symm
    rw [hasEarlyTab, ih h.2, ih h.2, htab, Bool.and_false]
    simp

/-- A plain text from the beginning of a word on. -/
structure IsPlain (t : List Char) : Prop where
  gap : ∀ c ∈ t, isGapChar c = true → c = ' '
  hash : anyNeighbours (fun b c => c == '#' && endsWord (some b)) t = false
  colon : anyNeighbours (fun c d => c == ':' && endsWord (some d)) t = false
  last_space : t.getLast? ≠ some ' '
  last_colon : t.getLast? ≠ some ':'
  head_gap : ∀ c, t.head? = some c → isGapChar c = false
  head_hash : t.head? ≠ some '#'

/-- A plain text is one word, or a word, spaces and a plain text. -/
theorem IsPlain.exists_word (h : IsPlain t) (ht : t ≠ []) :
    ∃ w, w ≠ [] ∧ (∀ c ∈ w, isGapChar c = false) ∧ w.getLast? ≠ some ':' ∧
      (t = w ∨ ∃ gap u, gap ≠ [] ∧ (∀ c ∈ gap, c = ' ') ∧ u ≠ [] ∧ t = w ++ (gap ++ u) ∧
        IsPlain u) := by
  obtain ⟨w, v, rfl, hwne, hw, hv⟩ := exists_run_of_head (p := fun c => !isGapChar c) ht
    fun c hc => by simp [h.head_gap c hc]
  obtain ⟨gap, u, rfl, hgap, hu⟩ := exists_run isGapChar v
  have hspace : ∀ c ∈ gap, c = ' ' := fun c hc => h.gap c (by simp [hc]) (hgap c hc)
  refine ⟨w, hwne, fun c hc => by simpa using hw c hc, fun hlast => ?_, ?_⟩
  · cases hhead : (gap ++ u).head? with
    | none =>
      rw [List.head?_eq_none_iff] at hhead
      exact h.last_colon (by rw [hhead, List.append_nil, hlast])
    | some c =>
      have hc := h.gap c (List.mem_append_right _ (List.mem_of_head? hhead))
        (by simpa using hv c hhead)
      have := not_neighbours_append h.colon hlast hhead
      rw [hc] at this
      exact absurd this (by decide)
  · by_cases hune : u = []
    · left
      rw [hune, List.append_nil] at h ⊢
      cases hlast : gap.getLast? with
      | none => rw [List.getLast?_eq_none_iff.mp hlast, List.append_nil]
      | some c =>
        refine absurd ?_ h.last_space
        rw [List.getLast?_append, hlast, Option.some_or, Option.some.injEq]
        exact hspace c (List.mem_of_getLast? hlast)
    · obtain ⟨c, cs, rfl⟩ := List.exists_cons_of_ne_nil hune
      have hgne : gap ≠ [] := by
        rintro rfl
        have := hv c rfl
        rw [hu c rfl] at this
        exact absurd this (by decide)
      have hlast : (w ++ (gap ++ c :: cs)).getLast? = (c :: cs).getLast? := by
        rw [List.getLast?_append, List.getLast?_append, List.getLast?_cons]
        rfl
      refine .inr ⟨gap, c :: cs, hgne, hspace, hune, rfl, fun d hd => h.gap d (by simp [hd]),
        anyNeighbours_right (anyNeighbours_right h.hash),
        anyNeighbours_right (anyNeighbours_right h.colon), hlast ▸ h.last_space,
        hlast ▸ h.last_colon, hu, fun hhash => ?_⟩
      cases hglast : gap.getLast? with
      | none => exact hgne (List.getLast?_eq_none_iff.mp hglast)
      | some b =>
        have := not_neighbours_append (anyNeighbours_right h.hash) hglast rfl
        rw [hspace b (List.mem_of_getLast? hglast), Option.some.inj hhash] at this
        exact absurd this (by decide)

theorem startsWord (hcolumn : 0 < column) (hne : w ≠ []) (hhash : w.head? ≠ some '#') :
    (column == 0 && isMarker (w ++ rest) || (w ++ rest).head? == some '#') = false := by
  obtain ⟨a, v, rfl⟩ := List.exists_cons_of_ne_nil hne
  have ha : a ≠ '#' := fun ha => hhash (by rw [ha]; rfl)
  simp [ha, Nat.ne_of_gt hcolumn]

section Reading

variable (hstart : (column == 0 && isMarker (w ++ rest) || (w ++ rest).head? == some '#') = false)
  (hne : w ≠ []) (hword : plainWord false (w ++ rest) = some (w, rest))

include hstart hne hword

theorem plainFrom_of_no_gap (hrest : ∀ c, rest.head? = some c → isGapChar c = false) :
    plainFrom false indent (fuel + 1) column gap (w ++ rest) =
      some ⟨foldGap gap ++ w, rest, false⟩ := by
  have htake : rest.takeWhile isGapChar = [] := by
    simpa using @takeWhile_run [] rest isGapChar nofun hrest
  have hdrop : rest.dropWhile isGapChar = rest := by
    simpa using @dropWhile_run [] rest isGapChar nofun hrest
  rw [plainFrom, hstart, if_neg (by decide), hword]
  simp only [Option.bind_eq_bind, Option.bind_some, List.isEmpty_eq_false_iff.mpr hne, htake,
    hdrop, List.isEmpty_nil, ↓reduceIte, Bool.false_eq_true]
  rfl

theorem plainFrom_of_gap {g v : List Char} (hrest : rest = g ++ v) (hg : g ≠ [])
    (hgap : ∀ c ∈ g, isGapChar c = true) (hv : ∀ c, v.head? = some c → isGapChar c = false)
    (htab : '\t' ∉ g) :
    plainFrom false indent (fuel + 1) column gap (w ++ rest) =
      if columnAfter (column + w.length) g < indent then
        some ⟨foldGap gap ++ w, v, g.any isBreak⟩
      else
        (plainFrom false indent fuel (columnAfter (column + w.length) g) g v).map fun more =>
          { more with text := foldGap gap ++ w ++ more.text } := by
  subst hrest
  rw [plainFrom, hstart, if_neg (by decide), hword]
  simp only [Option.bind_eq_bind, Option.bind_some, List.isEmpty_eq_false_iff.mpr hne,
    takeWhile_run hgap hv, dropWhile_run hgap hv, List.isEmpty_eq_false_iff.mpr hg,
    hasEarlyTab_eq_false htab, ↓reduceIte, Bool.false_eq_true, Bool.not_false, Bool.true_and,
    decide_eq_true_eq]
  split
  · rfl
  · cases plainFrom false indent fuel (columnAfter (column + w.length) g) g v <;> rfl

end Reading

theorem readPlain_key (hw : ∀ c ∈ w, isWordChar c = true) (hne : w ≠ [])
    (hrest : startsGap rest = true) :
    readPlain false indent column (w ++ ':' :: rest) = some ⟨w, ':' :: rest, false⟩ := by
  obtain ⟨a, v, rfl⟩ := List.exists_cons_of_ne_nil hne
  have ha := hw a List.mem_cons_self
  have hdash : a ≠ '-' := ne_of_isWordChar ha (by decide)
  have hdot : a ≠ '.' := ne_of_isWordChar ha (by decide)
  have hhash : a ≠ '#' := ne_of_isWordChar ha (by decide)
  refine plainFrom_of_no_gap ?_ hne (plainWord_run (fun c hc => not_isGapChar_of_isWordChar
    (hw c hc)) (plainWord_colon hrest) fun hgap => ?_) (by simp; decide)
  · simp [isMarker, hdash, hdot, hhash]
  · exact absurd hgap (by simp [startsGap]; decide)

theorem plainFrom_line (h : IsPlain t) (ht : t ≠ []) (hfuel : t.length ≤ fuel)
    (hindent : indent ≤ column) (hcolumn : 0 < column) (hgap : ∀ c ∈ gap, c = ' ')
    (hk : k < indent) (hrest : startsToken rest = true) :
    plainFrom false indent fuel column gap (t ++ '\n' :: (spaces k ++ rest)) =
      some ⟨gap ++ t, rest, true⟩ := by
  have hfold : ∀ {gap : List Char}, (∀ c ∈ gap, c = ' ') → foldGap gap = gap := fun h =>
    foldGap_of_no_break fun c hc => by rw [h c hc]; decide
  have hline : ∀ c ∈ '\n' :: spaces k, isGapChar c = true := by
    intro c hc
    rcases List.mem_cons.mp hc with rfl | hc
    · decide
    · rw [mem_spaces hc]
      decide
  have htab : '\t' ∉ '\n' :: spaces k := by
    intro hmem
    rcases List.mem_cons.mp hmem with heq | hmem
    · exact absurd heq (by decide)
    · exact absurd (mem_spaces hmem) (by decide)
  induction fuel generalizing t column gap with
  | zero => exact absurd (List.length_eq_zero_iff.mp (Nat.le_zero.mp hfuel)) ht
  | succ fuel ih =>
    obtain ⟨w, hne, hw, hlast, rfl | ⟨g, u, hg, hspace, hu, rfl, hplain⟩⟩ := h.exists_word ht
    · refine (plainFrom_of_gap (startsWord hcolumn hne h.head_hash) hne
        (plainWord_run hw (plainWord_gap ?_) fun _ => hlast) rfl (by simp) hline
        (fun c hc => not_isGapChar_of_startsToken hrest hc) htab).trans ?_
      · rintro c ⟨⟩
        decide
      · rw [columnAfter_line, if_pos hk, hfold hgap]
        rfl
    · have hgaps : ∀ c ∈ g, isGapChar c = true := fun c hc => by rw [hspace c hc]; decide
      have hhash : w.head? ≠ some '#' := fun hw' =>
        h.head_hash (by rw [List.head?_append, hw', Option.some_or])
      have hlength : u.length ≤ fuel := by
        have := List.length_pos_iff.mpr hne
        simp only [List.length_append] at hfuel
        omega
      have hcolumns : columnAfter (column + w.length) g = column + w.length + g.length :=
        columnAfter_of_no_break _ fun c hc => by rw [hspace c hc]; decide
      rw [List.append_assoc, List.append_assoc]
      refine (plainFrom_of_gap (startsWord hcolumn hne hhash) hne
        (plainWord_run hw (plainWord_gap ?_) fun _ => hlast) rfl hg hgaps ?_
        fun htab => ?_).trans ?_
      · intro c hc
        obtain ⟨b, v, rfl⟩ := List.exists_cons_of_ne_nil hg
        cases hc
        exact hgaps _ List.mem_cons_self
      · intro c hc
        obtain ⟨b, v, rfl⟩ := List.exists_cons_of_ne_nil hu
        exact hplain.head_gap c hc
      · exact absurd (hspace _ htab) (by decide)
      · rw [hcolumns, if_neg (by omega), ih hplain hu hlength (by omega) (by omega) hspace,
          hfold hgap]
        simp

theorem of_not_startsIndicator (h : startsIndicator (c :: t) = false) :
    c ∉ "#,[]\x7B\x7D&*!|>\x27\"%@\x60".toList ∧
      ((c = '?' ∨ c = ':' ∨ c = '-') → endsWord t.head? = false) := by
  simp only [startsIndicator, Bool.or_eq_false_iff, Bool.and_eq_false_iff] at h
  obtain ⟨-, hmark, hword⟩ := h
  refine ⟨by simpa using hmark, fun hc => hword.resolve_left fun hnone => ?_⟩
  simp only [beq_eq_false_iff_ne] at hnone
  rcases hc with hc | hc | hc
  · exact hnone.1.1 hc
  · exact hnone.1.2 hc
  · exact hnone.2 hc

/-- A text that may be written plain can be read plain. -/
theorem isPlain_of_isPlainAllowed (h : isPlainAllowed t = true) : IsPlain t := by
  simp only [isPlainAllowed, Bool.not_eq_true', Bool.or_eq_false_iff] at h
  obtain ⟨⟨⟨⟨⟨hstart, hindicator⟩, hescapes⟩, hbreaks⟩, hfirst⟩, hlast⟩ := h
  simp only [hasIndicator, Bool.or_eq_false_iff] at hindicator
  obtain ⟨⟨hhash, hcolon⟩, hend⟩ := hindicator
  simp only [needsEscapes, Bool.or_eq_false_iff] at hescapes
  have hprint : ∀ c ∈ t, isPrintable c = true := fun c hc => by
    simpa using List.any_eq_false.mp hescapes.2 c hc
  have hgap : ∀ c ∈ t, isGapChar c = true → c = ' ' := fun c hc hgap => by
    have hbreak := List.any_eq_false.mp hbreaks c hc
    rw [isAnyBreak_of_printable (hprint c hc)] at hbreak
    rw [isGapChar_of_printable (hprint c hc)] at hgap
    simpa [hbreak] using hgap
  refine ⟨hgap, hhash, ?_, ?_, ?_, ?_, ?_⟩
  · match t with
    | [] | [_] => rfl
    | c :: d :: cs =>
      rw [anyNeighbours_cons, Bool.or_eq_false_iff, Bool.and_eq_false_iff, beq_eq_false_iff_ne]
      refine ⟨?_, hcolon⟩
      by_cases hc : c = ':'
      · exact .inr ((of_not_startsIndicator hstart).2 (.inr (.inl hc)))
      · exact .inl hc
  · intro heq
    rw [heq] at hlast
    exact absurd hlast (by decide)
  · intro heq
    match t with
    | [c] =>
      cases heq
      exact absurd hstart (by decide)
    | c :: d :: cs => simp [heq] at hend
  · intro c hc
    rw [hc] at hfirst
    rw [isGapChar_of_printable (hprint c (List.mem_of_head? hc)),
      ← isAnyBreak_of_printable (hprint c (List.mem_of_head? hc))]
    exact hfirst
  · intro heq
    obtain ⟨cs, rfl⟩ := List.head?_eq_some_iff.mp heq
    exact (of_not_startsIndicator hstart).1 (by decide)

/-- The text that follows a key is read up to the next line. -/
theorem readPlain_line (h : isPlainAllowed t = true) (ht : t ≠ []) (hindent : indent ≤ column)
    (hcolumn : 0 < column) (hk : k < indent) (hrest : startsToken rest = true) :
    readPlain false indent column (t ++ '\n' :: (spaces k ++ rest)) = some ⟨t, rest, true⟩ :=
  plainFrom_line (isPlain_of_isPlainAllowed h) ht (by simp; omega) hindent hcolumn (by simp) hk
    hrest

end MailMerge.Yaml
