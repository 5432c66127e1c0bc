import MailMerge.Proofs.Yaml.Character
import MailMerge.Yaml.Scalar

/-! # Blocks read back

A block is read line by line. Each line gives the end of the line before it, the empty lines in
between and itself; what stands behind the mark of the block tells what to make of the ends of
lines after the last one.
-/

namespace MailMerge.Yaml

variable {c : Char} {t u v rest breaks : List Char} {column deepest k n outer fuel : Nat}

def Chomp.of (cs : List Char) : Chomp :=
  match cs.reverse with
  | [] => strip
  | [c] => if isBreak c then keep else strip
  | c :: d :: _ => if !isBreak c then strip else if isBreak d then keep else clip

/-- The first line begins with what could be taken for indentation. -/
def isIndented (cs : List Char) : Bool := cs.head?.any fun c => c == ' ' || isBreak c

def Chomp.sign : Chomp → List Char
  | strip => ['-']
  | clip => []
  | keep => ['+']

theorem blockSigns_eq (cs : List Char) :
    blockSigns cs = (if isIndented cs then ['2'] else []) ++ (Chomp.of cs).sign := by
  have hsign : ∀ ds : List Char, (match ds with
      | [] => ['-']
      | [c] => if isBreak c then ['+'] else ['-']
      | c :: d :: _ => if !isBreak c then ['-'] else if isBreak d then ['+'] else []) =
      Chomp.sign (match ds with
      | [] => .strip
      | [c] => if isBreak c then .keep else .strip
      | c :: d :: _ => if !isBreak c then .strip else if isBreak d then .keep else .clip) := by
    intro ds
    match ds with
    | [] => rfl
    | [c] => cases h : isBreak c <;> simp [h, Chomp.sign]
    | c :: d :: _ => cases h : isBreak c <;> cases h' : isBreak d <;> simp [h, h', Chomp.sign]
  exact congrArg ((if isIndented cs then ['2'] else []) ++ ·) (hsign cs.reverse)

theorem headerSigns_blockSigns (cs rest : List Char) :
    headerSigns (blockSigns cs ++ '\n' :: rest) =
      some (⟨Chomp.of cs, if isIndented cs then some 2 else none⟩, '\n' :: rest) := by
  rw [blockSigns_eq]
  cases isIndented cs <;> cases Chomp.of cs <;> rfl

theorem blockGap_spaces (hk : column + k ≤ n) :
    ∃ deepest', blockGap (some n) column deepest (spaces k ++ rest) =
      blockGap (some n) (column + k) deepest' rest := by
  induction k generalizing column deepest with
  | zero => exact ⟨deepest, rfl⟩
  | succ k ih =>
    obtain ⟨deepest', heq⟩ := @ih (column + 1) (max deepest (column + 1)) (by omega)
    refine ⟨deepest', ?_⟩
    rw [spaces_succ, List.cons_append, blockGap]
    simp only [Option.all_some, show column < n by omega, decide_true, beq_self_eq_true,
      Bool.and_self, if_true, heq]
    congr 1
    omega

theorem blockGap_eq (hbreaks : ∀ c ∈ breaks, isBreak c = true) (hk : k ≤ n)
    (hrest : ∀ c, rest.head? = some c → isBreak c = false ∧ (k = n ∨ isTabOrSpace c = false)) :
    ∃ deepest', blockGap (some n) 0 deepest (breaks ++ (spaces k ++ rest)) =
      some ⟨breaks, deepest', k, rest⟩ := by
  induction breaks generalizing deepest with
  | nil =>
    obtain ⟨deepest', heq⟩ := @blockGap_spaces rest 0 deepest k n (by omega)
    rw [List.nil_append, heq, Nat.zero_add]
    cases rest with
    | nil => exact ⟨_, rfl⟩
    | cons c cs =>
      obtain ⟨hbreak, hinside⟩ := hrest c rfl
      refine ⟨max deepest' k, ?_⟩
      rw [blockGap]
      rcases hinside with rfl | hspace
      · simp [hbreak]
      · simp only [isTabOrSpace, Bool.or_eq_false_iff] at hspace
        simp [hbreak, hspace]
  | cons c breaks ih =>
    obtain ⟨deepest', heq⟩ := @ih deepest fun d hd => hbreaks d (List.mem_cons_of_mem _ hd)
    have hc := hbreaks c List.mem_cons_self
    have hspace : c ≠ ' ' := by
      rintro rfl
      exact absurd hc (by decide)
    have htab : c ≠ '\t' := by
      rintro rfl
      exact absurd hc (by decide)
    refine ⟨deepest', ?_⟩
    rw [List.cons_append, blockGap]
    simp [hspace, htab, hc, heq]

theorem blockGap_none (hbreak : isBreak c = false) (hspace : isTabOrSpace c = false) :
    blockGap none column column (spaces k ++ c :: rest) =
      some ⟨[], column + k, column + k, c :: rest⟩ := by
  simp only [isTabOrSpace, Bool.or_eq_false_iff] at hspace
  induction k generalizing column with
  | zero => simp [spaces, blockGap, hbreak, hspace]
  | succ k ih =>
    rw [spaces_succ, List.cons_append, blockGap]
    simp only [Option.all_none, beq_self_eq_true, Bool.and_self, if_true]
    rw [Nat.max_eq_right (Nat.le_succ column), ih]
    congr 2 <;> omega

theorem line_after_breaks (hbreaks : ∀ c ∈ breaks, isBreak c = true) (hne : breaks ++ u ≠ [])
    (hlast : ∀ c, (breaks ++ u).getLast? = some c → isBreak c = false) :
    u ≠ [] ∧ ∀ c, u.getLast? = some c → isBreak c = false := by
  constructor
  · rintro rfl
    rw [List.append_nil] at hne hlast
    obtain ⟨c, hc⟩ := Option.isSome_iff_exists.mp (List.getLast?_isSome.mpr hne)
    have hbreak := hbreaks c (List.mem_of_getLast? hc)
    rw [hlast c hc] at hbreak
    exact absurd hbreak (by decide)
  · intro c hc
    exact hlast c (by rw [List.getLast?_append, hc]; rfl)

theorem exists_ends (cs : List Char) : ∃ u breaks, cs = u ++ breaks ∧
    (∀ c ∈ breaks, isBreak c = true) ∧ ∀ c, u.getLast? = some c → isBreak c = false := by
  obtain ⟨xs, ys, hreverse, hxs, hys⟩ := exists_run isBreak cs.reverse
  refine ⟨ys.reverse, xs.reverse, ?_, ?_, ?_⟩
  · rw [← List.reverse_append, ← hreverse, List.reverse_reverse]
  · exact fun c hc => hxs c (List.mem_reverse.mp hc)
  · exact fun c hc => hys c (by rw [← List.getLast?_reverse]; exact hc)

theorem writeLines_breaks (hbreaks : ∀ c ∈ breaks, isBreak c = true) :
    writeLines n true (breaks ++ u) = breaks ++ writeLines n true u := by
  induction breaks with
  | nil => rfl
  | cons c breaks ih =>
    rw [List.cons_append, writeLines, if_pos (hbreaks c List.mem_cons_self),
      ih fun d hd => hbreaks d (List.mem_cons_of_mem _ hd)]
    rfl

theorem writeLines_append (fresh : Bool) (hbreaks : ∀ c ∈ breaks, isBreak c = true) :
    writeLines n fresh (u ++ breaks) = writeLines n fresh u ++ breaks := by
  have hwritten : ∀ fresh, writeLines n fresh breaks = breaks := by
    intro fresh
    cases breaks with
    | nil => rfl
    | cons c breaks =>
      have h := writeLines_breaks (n := n) (u := []) fun d hd =>
        hbreaks d (List.mem_cons_of_mem c hd)
      rw [List.append_nil] at h
      rw [writeLines, if_pos (hbreaks c List.mem_cons_self), h, writeLines, List.append_nil]
  induction u generalizing fresh with
  | nil => exact hwritten fresh
  | cons c u ih =>
    rw [List.cons_append, writeLines, writeLines, ih, ih]
    split <;> simp

theorem length_le_writeLines (fresh : Bool) (t : List Char) :
    t.length ≤ (writeLines n fresh t).length := by
  induction t generalizing fresh with
  | nil => exact Nat.le_refl _
  | cons c t ih =>
    have := ih true
    have := ih false
    rw [writeLines]
    split <;> simp only [List.length_cons, List.length_append] <;> omega

theorem writeLines_fresh (hu : u ≠ []) (hhead : ∀ c, u.head? = some c → isBreak c = false) :
    writeLines n true u = spaces n ++ writeLines n false u := by
  obtain ⟨c, cs, rfl⟩ := List.exists_cons_of_ne_nil hu
  simp [writeLines, hhead c rfl]

theorem writeLines_line (ht : ∀ c ∈ t, isBreak c = false) :
    writeLines n false (t ++ u) = t ++ writeLines n false u := by
  induction t with
  | nil => rfl
  | cons c t ih =>
    rw [List.cons_append, writeLines, ht c List.mem_cons_self,
      ih fun d hd => ht d (List.mem_cons_of_mem _ hd)]
    rfl

/-- What is left of the ends of lines after the last line, the first of which is `broken`. -/
def Chomp.ending (chomp : Chomp) (broken breaks : List Char) : List Char :=
  match chomp with
  | .strip => []
  | .clip => broken
  | .keep => broken ++ breaks

theorem blockLines_end {chomp : Chomp} {broken : List Char} {blank : Bool} (hk : k < n) :
    blockLines true chomp n (fuel + 1) broken blank ⟨breaks, deepest, k, rest⟩ =
      some (chomp.ending broken breaks, rest) := by
  rw [blockLines.eq_def]
  simp only [show k ≠ n by omega, decide_false, Bool.false_and, Bool.false_eq_true, if_false]
  rfl

theorem blockLines_line {chomp : Chomp} {broken : List Char} {blank : Bool} {b : Char}
    (ht : ∀ c ∈ t, isBreak c = false) (hne : t ≠ []) (hb : isBreak b = true) :
    blockLines true chomp n (fuel + 1) broken blank ⟨breaks, deepest, n, t ++ b :: rest⟩ =
      ((blockGap (some n) 0 0 rest).bind fun next =>
        blockLines true chomp n fuel [b] (t.head?.any isTabOrSpace) next).map fun r =>
          (broken ++ breaks ++ t ++ r.1, r.2) := by
  have hline : ∀ c ∈ t, (!isBreak c) = true := fun c hc => by simp [ht c hc]
  have hstop : ∀ c, (b :: rest).head? = some c → (!isBreak c) = false := by
    rintro c ⟨⟩
    simp [hb]
  have hempty : (t ++ b :: rest).isEmpty = false := by simp
  have hhead : (t ++ b :: rest).head? = t.head? := by
    obtain ⟨c, cs, rfl⟩ := List.exists_cons_of_ne_nil hne
    rfl
  rw [blockLines.eq_def]
  simp only [hempty, hhead, takeWhile_run hline hstop, dropWhile_run hline hstop, decide_true,
    Bool.not_false, Bool.and_self, if_true, Bool.not_true, Bool.false_and, Bool.false_eq_true,
    if_false, List.isEmpty_cons, List.drop_succ_cons, List.drop_zero, List.take_succ_cons,
    List.take_zero, Option.bind_eq_bind]
  cases blockGap (some n) 0 0 rest with
  | none => rfl
  | some next =>
    simp only [Option.bind_some]
    cases blockLines true chomp n fuel [b] (t.head?.any isTabOrSpace) next <;> rfl

theorem blockLines_body {chomp : Chomp} {broken ends : List Char} {blank : Bool} {b : Char}
    (hends : ∀ c ∈ b :: ends, isBreak c = true) (hk : k < n) (hrest : startsToken rest = true)
    (hu : u ≠ []) (hhead : ∀ c, u.head? = some c → isBreak c = false)
    (hlast : ∀ c, u.getLast? = some c → isBreak c = false) (hfuel : u.length < fuel) :
    blockLines true chomp n fuel broken blank
        ⟨breaks, deepest, n, writeLines n false u ++ b :: (ends ++ (spaces k ++ rest))⟩ =
      some (broken ++ breaks ++ u ++ chomp.ending [b] ends, rest) := by
  induction hlen : u.length using Nat.strongRecOn
    generalizing u fuel broken blank breaks deepest with
  | _ m ih =>
  obtain ⟨fuel, rfl⟩ : ∃ n, fuel = n + 1 := ⟨fuel - 1, by omega⟩
  subst hlen
  obtain ⟨t, v, rfl, hne, ht, hv⟩ := exists_run_of_head (p := fun c => !isBreak c) hu
    fun c hc => by simp [hhead c hc]
  have ht : ∀ c ∈ t, isBreak c = false := fun c hc => by simpa using ht c hc
  have hlength := List.length_pos_iff.mpr hne
  rw [List.length_append] at hfuel ih
  rw [writeLines_line ht]
  cases v with
  | nil =>
    obtain ⟨deepest', hgap⟩ := @blockGap_eq rest ends 0 k n
      (fun c hc => hends c (List.mem_cons_of_mem _ hc)) (Nat.le_of_lt hk) fun c hc =>
        have hc := not_isGapChar_iff.mp (not_isGapChar_of_startsToken hrest hc)
        ⟨hc.2, .inr hc.1⟩
    obtain ⟨fuel, rfl⟩ : ∃ n, fuel = n + 1 := ⟨fuel - 1, by omega⟩
    rw [writeLines, List.append_nil, blockLines_line ht hne
      (hends b List.mem_cons_self), hgap, Option.bind_some, blockLines_end hk, Option.map_some]
  | cons c v =>
    have hc : isBreak c = true := by simpa using hv c rfl
    obtain ⟨breaks', u', rfl, hbreaks', hhead'⟩ := exists_run isBreak v
    obtain ⟨hune, hlast'⟩ := line_after_breaks (List.forall_mem_cons.mpr ⟨hc, hbreaks'⟩)
      (List.cons_ne_nil c _) fun d hd => hlast d (by rw [List.getLast?_append]; exact hd ▸ rfl)
    obtain ⟨d, u', rfl⟩ := List.exists_cons_of_ne_nil hune
    obtain ⟨deepest', hgap⟩ := @blockGap_eq
      (writeLines n false (d :: u') ++ b :: (ends ++ (spaces k ++ rest))) breaks' 0 n n hbreaks'
      (Nat.le_refl n) fun c hc => by
        rw [writeLines, if_neg (by simp [hhead' d rfl])] at hc
        cases hc
        exact ⟨hhead' _ rfl, .inl rfl⟩
    have hbody : ∀ {blank : Bool}, blockLines true chomp n fuel [c] blank ⟨breaks', deepest', n,
        writeLines n false (d :: u') ++ b :: (ends ++ (spaces k ++ rest))⟩ =
        some ([c] ++ breaks' ++ (d :: u') ++ chomp.ending [b] ends, rest) :=
      ih (d :: u').length (by simp only [List.length_append, List.length_cons]; omega) hune hhead'
        hlast' (by simp only [List.length_append, List.length_cons] at hfuel ⊢; omega) rfl
    rw [writeLines, if_pos hc, writeLines_breaks hbreaks', writeLines_fresh hune hhead',
      List.append_assoc, List.cons_append, List.append_assoc, List.append_assoc,
      blockLines_line ht hne hc, hgap, Option.bind_some, hbody]
    simp

theorem Chomp.of_breaks (hbreaks : ∀ c ∈ breaks, isBreak c = true) (hne : breaks ≠ []) :
    Chomp.of breaks = keep := by
  have hreverse : ∀ c ∈ breaks.reverse, isBreak c = true := fun c hc =>
    hbreaks c (List.mem_reverse.mp hc)
  rw [Chomp.of]
  match hcs : breaks.reverse with
  | [] => exact absurd (List.reverse_eq_nil_iff.mp hcs) hne
  | [c] =>
    rw [hcs] at hreverse
    simp [hreverse c (by simp)]
  | c :: d :: _ =>
    rw [hcs] at hreverse
    simp [hreverse c (by simp), hreverse d (by simp)]

/-- The ends of lines behind the last line are written, or one more if there is none, and what is
left of them are those of the text. -/
theorem Chomp.ending_of (hbreaks : ∀ c ∈ breaks, isBreak c = true) (hu : u ≠ [])
    (hlast : ∀ c, u.getLast? = some c → isBreak c = false) :
    ∃ b ends, (∀ c ∈ b :: ends, isBreak c = true) ∧
      breaks ++ (if (u ++ breaks).getLast?.any isBreak then [] else ['\n']) = b :: ends ∧
      (Chomp.of (u ++ breaks)).ending [b] ends = breaks := by
  obtain ⟨x, hx⟩ := Option.isSome_iff_exists.mp (List.getLast?_isSome.mpr hu)
  obtain ⟨u, rfl⟩ := List.getLast?_eq_some_iff.mp hx
  have hx := hlast x hx
  cases hends : breaks.getLast? with
  | none =>
    obtain rfl := List.getLast?_eq_none_iff.mp hends
    refine ⟨'\n', [], by decide, by simp [hx], ?_⟩
    rw [Chomp.of, List.append_nil, List.reverse_append]
    cases u.reverse <;> simp [hx, Chomp.ending]
  | some y =>
    obtain ⟨breaks, rfl⟩ := List.getLast?_eq_some_iff.mp hends
    have hy := hbreaks y (by simp)
    cases breaks with
    | nil => exact ⟨y, [], hbreaks, by simp [hy], by simp [Chomp.of, hx, hy, Chomp.ending]⟩
    | cons b breaks =>
      refine ⟨b, breaks ++ [y], hbreaks, ?_, ?_⟩
      · rw [← List.append_assoc, List.getLast?_concat]
        simp [hy]
      have hkeep : Chomp.of (u ++ [x] ++ (b :: breaks ++ [y])) = keep := by
        rw [Chomp.of, List.reverse_append, List.reverse_append]
        cases hrev : (b :: breaks).reverse with
        | nil => simp at hrev
        | cons z zs =>
          have hz := hbreaks z (List.mem_append_left _
            (List.mem_reverse.mp (by rw [hrev]; exact List.mem_cons_self)))
          simp [hy, hz]
      rw [hkeep]
      rfl

theorem skipLineEnd_line (rest : List Char) : skipLineEnd ('\n' :: rest) = some rest := rfl

theorem readBlock_blockSigns {cs body : List Char} {first : BlockGap}
    (hfirst : blockGap (if isIndented cs then some (outer + 2) else none) 0 0 body = some first)
    (hdeepest : isIndented cs = false → first.deepest = outer + 2) :
    readBlock true (some outer) (blockSigns cs ++ '\n' :: body) =
      blockLines true (Chomp.of cs) (outer + 2) (body.length + 1) [] false first := by
  rw [readBlock, headerSigns_blockSigns]
  simp only [Option.bind_eq_bind, Option.bind_some, skipLineEnd_line]
  cases hind : isIndented cs with
  | true =>
    rw [hind] at hfirst
    simp only [if_true] at hfirst
    simp [hfirst]
  | false =>
    rw [hind] at hfirst
    simp only [Bool.false_eq_true, if_false] at hfirst
    simp [hfirst, hdeepest hind]

theorem blockGap_first {cs line : List Char} (hcs : cs = breaks ++ c :: u)
    (hline : line.head? = some c) (hbreaks : ∀ c ∈ breaks, isBreak c = true)
    (hc : isBreak c = false) (htab : cs.head? ≠ some '\t') :
    ∃ deepest, blockGap (if isIndented cs then some n else none) 0 0
        (breaks ++ (spaces n ++ line)) = some ⟨breaks, deepest, n, line⟩ ∧
      (isIndented cs = false → deepest = n) := by
  subst hcs
  obtain ⟨rest, rfl⟩ := List.head?_eq_some_iff.mp hline
  cases hind : isIndented (breaks ++ c :: u) with
  | true =>
    obtain ⟨deepest, hgap⟩ := @blockGap_eq (c :: rest) breaks 0 n n hbreaks (Nat.le_refl _) <| by
      rintro d ⟨⟩
      exact ⟨hc, .inl rfl⟩
    exact ⟨deepest, hgap, nofun⟩
  | false =>
    cases breaks with
    | cons d breaks =>
      have hd := hbreaks d List.mem_cons_self
      exact absurd hind (by simp [isIndented, hd])
    | nil =>
      have htab : c ≠ '\t' := fun heq => htab (by rw [heq]; rfl)
      have hspace : (c == ' ') = false := (Bool.or_eq_false_iff.mp hind).1
      have hgap := @blockGap_none c rest 0 n hc (by simpa [isTabOrSpace, hspace] using htab)
      rw [Nat.zero_add] at hgap
      exact ⟨n, hgap, fun _ => rfl⟩

theorem readBlock_breaks (hbreaks : ∀ c ∈ breaks, isBreak c = true) (hne : breaks ≠ [])
    (hk : k ≤ outer) (hrest : startsToken rest = true) :
    readBlock true (some outer) (blockSigns breaks ++ '\n' ::
        (writeLines (outer + 2) true breaks ++
          ((if breaks.getLast?.any isBreak then [] else ['\n']) ++ (spaces k ++ rest)))) =
      some (breaks, rest) := by
  have hind : isIndented breaks = true := by
    obtain ⟨c, cs, rfl⟩ := List.exists_cons_of_ne_nil hne
    simp [isIndented, hbreaks c List.mem_cons_self]
  have hbroken : breaks.getLast?.any isBreak = true := by
    obtain ⟨d, hd⟩ := Option.isSome_iff_exists.mp (List.getLast?_isSome.mpr hne)
    rw [hd, Option.any_some]
    exact hbreaks d (List.mem_of_getLast? hd)
  have hwritten := writeLines_append (n := outer + 2) (u := []) true hbreaks
  rw [List.nil_append, writeLines, List.nil_append] at hwritten
  obtain ⟨deepest, hgap⟩ := @blockGap_eq rest breaks 0 k (outer + 2) hbreaks (by omega) fun c hc =>
    have hc := not_isGapChar_iff.mp (not_isGapChar_of_startsToken hrest hc)
    ⟨hc.2, .inr hc.1⟩
  rw [hwritten, hbroken, if_pos rfl, List.nil_append,
    readBlock_blockSigns (by rw [hind, if_pos rfl, hgap]) (by simp [hind]),
    blockLines_end (by omega), Chomp.of_breaks hbreaks hne]
  rfl

/-- A text that is written as a block is read as it was written, up to the next token. -/
theorem readBlock_writeLines {cs : List Char} (hcs : cs ≠ []) (htab : cs.head? ≠ some '\t')
    (hk : k ≤ outer) (hrest : startsToken rest = true) :
    readBlock true (some outer) (blockSigns cs ++ '\n' :: (writeLines (outer + 2) true cs ++
        ((if cs.getLast?.any isBreak then [] else ['\n']) ++ (spaces k ++ rest)))) =
      some (cs, rest) := by
  obtain ⟨u, breaks, rfl, hbreaks, hlast⟩ := exists_ends cs
  by_cases hu : u = []
  · subst hu
    rw [List.nil_append] at *
    exact readBlock_breaks hbreaks hcs hk hrest
  obtain ⟨b, ends, hends, heq, hending⟩ := Chomp.ending_of hbreaks hu hlast
  obtain ⟨starts, v, rfl, hstarts, hv⟩ := exists_run isBreak u
  obtain ⟨hvne, hvlast⟩ := line_after_breaks hstarts hu hlast
  obtain ⟨c, v, rfl⟩ := List.exists_cons_of_ne_nil hvne
  have hc := hv c rfl
  have hbody : writeLines (outer + 2) true (starts ++ c :: v ++ breaks) ++
      ((if (starts ++ c :: v ++ breaks).getLast?.any isBreak then [] else ['\n']) ++
        (spaces k ++ rest)) =
      starts ++ (spaces (outer + 2) ++
        (writeLines (outer + 2) false (c :: v) ++ b :: (ends ++ (spaces k ++ rest)))) := by
    rw [writeLines_append _ hbreaks, writeLines_breaks hstarts, writeLines_fresh hvne hv]
    have heq := congrArg (· ++ (spaces k ++ rest)) heq
    simp only [List.append_assoc, List.cons_append] at heq ⊢
    rw [heq]
  have hline : (writeLines (outer + 2) false (c :: v) ++
      b :: (ends ++ (spaces k ++ rest))).head? = some c := by
    rw [writeLines, if_neg (by simp [hc])]
    rfl
  obtain ⟨deepest, hgap, hdeepest⟩ := blockGap_first (n := outer + 2)
    (List.append_assoc starts (c :: v) breaks) hline hstarts hc htab
  rw [hbody, readBlock_blockSigns hgap hdeepest, blockLines_body hends (by omega) hrest hvne hv
    hvlast (by
      have := length_le_writeLines (n := outer + 2) false (c :: v)
      simp only [List.length_append]; omega), hending]
  simp

end MailMerge.Yaml
