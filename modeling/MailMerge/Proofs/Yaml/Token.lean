import MailMerge.Proofs.Yaml.Style

/-! # Tokens of written settings

A key, the colon after it and its value are scanned one after the other. In between nothing is
pending, so a text is scanned entry by entry: each adds its tokens and leaves the scanner at the
beginning of the next one.
-/

namespace MailMerge.Yaml

namespace Scanner

variable {s s' s'' : Scanner} {c : Char} {cs rest w : List Char} {line column k n fuel : Nat}
  {tokens : List Token} {indents : List Nat} {keys : List (Option PendingKey)}
  {key : Option PendingKey} {allowed : Bool}

/-- The scanner in front of the next token: gaps are passed over, and what has ended is closed. -/
def settle (s : Scanner) : Option Scanner := do
  let s ← (s.skipGap (s.cursor.rest.length + 1)).dropStale
  return s.unroll (some s.cursor.column)

/-- A scanner that reads any number of tokens, each of which is written in some characters. -/
inductive Run : Scanner → Scanner → Prop
  | stop (s : Scanner) : Run s s
  | step {s s₁ s₂ s' : Scanner} {c : Char} {cs : List Char} (hsettle : s.settle = some s₁)
      (hrest : s₁.cursor.rest = c :: cs) (hnext : s₁.pushNext c cs = some s₂)
      (hshorter : s₂.cursor.rest.length < s.cursor.rest.length) (h : Run s₂ s') : Run s s'

theorem Run.trans (h : Run s s') (h' : Run s' s'') : Run s s'' := by
  induction h with
  | stop => exact h'
  | step hsettle hrest hnext hshorter _ ih => exact .step hsettle hrest hnext hshorter (ih h')

theorem scan_end (hsettle : s.settle = some s') (hrest : s'.cursor.rest = []) :
    scan (fuel + 1) s = s'.leaveBlocks.map Scanner.tokens := by
  rw [settle] at hsettle
  rw [scan]
  cases hdrop : (s.skipGap (s.cursor.rest.length + 1)).dropStale with
  | none =>
    rw [hdrop] at hsettle
    exact nomatch hsettle
  | some s₁ =>
    rw [hdrop] at hsettle
    obtain rfl := Option.some.inj hsettle
    simp only [Option.bind_eq_bind, Option.bind_some, hrest]
    cases (s₁.unroll (some s₁.cursor.column)).leaveBlocks <;> rfl

theorem scan_next (hsettle : s.settle = some s') (hrest : s'.cursor.rest = c :: cs)
    (hnext : s'.pushNext c cs = some s'') : scan (fuel + 1) s = scan fuel s'' := by
  rw [settle] at hsettle
  rw [scan]
  cases hdrop : (s.skipGap (s.cursor.rest.length + 1)).dropStale with
  | none =>
    rw [hdrop] at hsettle
    exact nomatch hsettle
  | some s₁ =>
    rw [hdrop] at hsettle
    obtain rfl := Option.some.inj hsettle
    simp only [Option.bind_eq_bind, Option.bind_some, hrest, hnext]

/-- A run to the end of the text gives all its tokens. -/
theorem scan_of_run (h : Run s s') (hsettle : s'.settle = some s'')
    (hrest : s''.cursor.rest = []) (hfuel : s.cursor.rest.length < fuel) :
    scan fuel s = s''.leaveBlocks.map Scanner.tokens := by
  induction h generalizing fuel with
  | stop s =>
    obtain ⟨fuel, rfl⟩ : ∃ n, fuel = n + 1 := ⟨fuel - 1, by omega⟩
    exact scan_end hsettle hrest
  | step hsettle₁ hrest₁ hnext hshorter _ ih =>
    obtain ⟨fuel, rfl⟩ : ∃ n, fuel = n + 1 := ⟨fuel - 1, by omega⟩
    rw [scan_next hsettle₁ hrest₁ hnext]
    exact ih hsettle (by omega)

theorem skipGap_spaces (hrest : startsToken rest = true) :
    skipGap (fuel + 1) ⟨⟨spaces k ++ rest, line, column⟩, tokens, indents, keys, allowed⟩ =
      ⟨⟨rest, line, column + k⟩, tokens, indents, keys, allowed⟩ := by
  have hmark : ((spaces k ++ rest).head? == some byteOrderMark) = false := by
    cases k with
    | zero =>
      cases rest with
      | nil => rfl
      | cons c cs =>
        simp only [startsToken, List.head?_cons, Option.all_some, Bool.and_eq_true, bne_iff_ne]
          at hrest
        simp [spaces, hrest.2]
    | succ k => rfl
  have hspace : ∀ c ∈ spaces k, (c == ' ' || c == '\t' && (decide (1 < keys.length) || !allowed)) =
      true := fun c hc => by simp [mem_spaces hc]
  have hstop : ∀ c, rest.head? = some c →
      (c == ' ' || c == '\t' && (decide (1 < keys.length) || !allowed)) = false := fun c hc => by
    have := (not_isGapChar_iff.mp (not_isGapChar_of_startsToken hrest hc)).1
    simp only [isTabOrSpace, Bool.or_eq_false_iff] at this
    simp [this]
  have hhash : (rest.head? == some '#') = false := by
    cases rest with
    | nil => rfl
    | cons c cs =>
      simp only [startsToken, List.head?_cons, Option.all_some, Bool.and_eq_true, bne_iff_ne]
        at hrest
      simp [hrest.1.2]
  have hbreak : rest.head?.any isBreak = false := by
    rw [Option.any_eq_false]
    exact fun c hc => by
      simpa using (not_isGapChar_iff.mp (not_isGapChar_of_startsToken hrest hc)).2
  have hcount : (spaces k).countP isBreak = 0 := by
    rw [List.countP_eq_zero]
    exact fun c hc => by rw [mem_spaces hc]; decide
  rw [skipGap]
  simp only [hmark, Bool.and_false, Bool.false_eq_true, if_false, isFlow,
    dropWhile_run hspace hstop, hhash, Cursor.moveTo_append, hbreak, hcount, columnAfter_spaces,
    Nat.add_zero]

theorem skipGap_here (hrest : startsToken rest = true) :
    skipGap (fuel + 1) ⟨⟨rest, line, column⟩, tokens, indents, keys, allowed⟩ =
      ⟨⟨rest, line, column⟩, tokens, indents, keys, allowed⟩ :=
  skipGap_spaces (k := 0) hrest

theorem moveTo_self (rest : List Char) (line column : Nat) :
    Cursor.moveTo ⟨rest, line, column⟩ rest = ⟨rest, line, column⟩ :=
  Cursor.moveTo_append line column [] rest

theorem length_moveTo (p : Cursor) (rest : List Char) :
    (p.moveTo rest).rest.length = rest.length := rfl

theorem drop_one (c : Char) (rest : List Char) (line column : Nat) :
    Cursor.drop ⟨c :: rest, line, column⟩ 1 =
      ⟨rest, line + [c].countP isBreak, columnAfter column [c]⟩ :=
  Cursor.moveTo_append line column [c] rest

theorem skipGap_line :
    skipGap (fuel + 1) ⟨⟨'\n' :: rest, line, column⟩, tokens, indents, [none], allowed⟩ =
      skipGap fuel ⟨⟨rest, line + 1, 0⟩, tokens, indents, [none], true⟩ := by
  have hmark : (('\n' :: rest).head? == some byteOrderMark) = false := rfl
  have hskip {p : Char → Bool} (hp : p '\n' = false) :
      ('\n' :: rest).dropWhile p = '\n' :: rest := List.dropWhile_cons_of_neg (by simp [hp])
  rw [skipGap]
  simp only [hmark, Bool.and_false, Bool.false_eq_true, if_false]
  rw [hskip (by rfl)]
  have hhash : (('\n' :: rest).head? == some '#') = false := rfl
  have hbreak : ('\n' :: rest).head?.any isBreak = true := rfl
  simp only [hhash, hbreak, Bool.false_eq_true, if_false, if_true, moveTo_self, drop_one, isFlow,
    List.length_singleton, Nat.lt_irrefl, decide_false, Bool.not_false, Bool.or_true]
  rfl

theorem dropStale_none : dropStale ⟨⟨rest, line, column⟩, tokens, indents, [none], allowed⟩ =
    some ⟨⟨rest, line, column⟩, tokens, indents, [none], allowed⟩ := rfl

theorem dropStale_pending {key : PendingKey} (hkeys : s.keys = [some key])
    (hkey : s.isStale key = false) : s.dropStale = some s := by
  obtain ⟨cursor, tokens, indents, keys, allowed⟩ := s
  subst hkeys
  simp [dropStale, hkey]

theorem dropStale_stale {key : PendingKey} (hkeys : s.keys = [some key])
    (hkey : s.isStale key = true) (hrequired : key.required = false) :
    s.dropStale = some { s with keys := [none] } := by
  obtain ⟨cursor, tokens, indents, keys, allowed⟩ := s
  subst hkeys
  simp [dropStale, hkey, hrequired]

theorem settle_spaces (hrest : startsToken rest = true) :
    settle ⟨⟨spaces k ++ rest, line, column⟩, tokens, indents, [none], allowed⟩ =
      some (unroll ⟨⟨rest, line, column + k⟩, tokens, indents, [none], allowed⟩
        (some (column + k))) := by
  rw [settle, skipGap_spaces hrest, dropStale_none]
  rfl

theorem settle_line (hrest : startsToken rest = true) :
    settle ⟨⟨'\n' :: (spaces k ++ rest), line, column⟩, tokens, indents, [none], allowed⟩ =
      some (unroll ⟨⟨rest, line + 1, k⟩, tokens, indents, [none], true⟩ (some k)) := by
  rw [settle, skipGap_line]
  simp only [List.length_cons]
  rw [skipGap_spaces hrest, dropStale_none, Nat.zero_add]
  rfl

theorem pushNext_plain (hmargin : s.cursor.column = 0 → isWordChar c = true)
    (hflow : s.isFlow = false) (hmark : c ∉ "#,[]\x7B\x7D&*!|>\x27\"%@\x60".toList)
    (hgap : isGapChar c = false)
    (hword : (c = '?' ∨ c = ':' ∨ c = '-') → startsGap cs = false) :
    s.pushNext c cs = s.pushPlain := by
  have hsign {d : Char} (hd : d = '?' ∨ d = ':' ∨ d = '-') {b : Bool} (hb : b = startsGap cs) :
      (decide (c = d) && b) = false := by
    by_cases hc : c = d
    · rw [hb, hword (hc ▸ hd), Bool.and_false]
    · simp [hc]
  have hmarker : (decide (s.cursor.column = 0) && isMarker (c :: cs)) = false := by
    by_cases hcolumn : s.cursor.column = 0
    · have hdash : c ≠ '-' := ne_of_isWordChar (hmargin hcolumn) (by decide)
      have hdot : c ≠ '.' := ne_of_isWordChar (hmargin hcolumn) (by decide)
      simp [isMarker, hdash, hdot]
    · simp [hcolumn]
  have hstart : s.startsPlain c cs = true := by
    by_cases hdash : c = '-'
    · have hnext := hword (.inr (.inr hdash))
      cases cs with
      | nil => exact absurd hnext (by decide)
      | cons d cs =>
        have hd : isTabOrSpace d = false := (not_isGapChar_iff.mp hnext).1
        simp [startsPlain, hdash, hd]
    · by_cases hsign : c = '?' ∨ c = ':'
      · have hnext := hword (hsign.imp_right .inl)
        rcases hsign with rfl | rfl <;> simp [startsPlain, hflow, hnext]
      · rw [not_or] at hsign
        simp only [String.reduceToList, List.mem_cons, not_or] at hmark
        simp [startsPlain, hgap, hdash, hsign, hmark]
  simp only [String.reduceToList, List.mem_cons, List.not_mem_nil, or_false, not_or] at hmark
  have hpercent : (c == '%') = false := by simp [hmark]
  simp only [pushNext, hflow, hmarker, hsign (d := '-') (by simp) rfl, hpercent,
    hsign (d := '?') (by simp) (Bool.false_or _), hsign (d := ':') (by simp) (Bool.false_or _),
    hstart, hmark, Bool.false_eq_true, if_false, if_true, Bool.and_false, decide_false,
    Bool.false_and]

theorem not_isBreak_of_isWordChar (hw : ∀ c ∈ w, isWordChar c = true) :
    ∀ c ∈ w, isBreak c = false := fun c hc =>
  (not_isGapChar_iff.mp (not_isGapChar_of_isWordChar (hw c hc))).2

theorem moveTo_word (hw : ∀ c ∈ w, isWordChar c = true) :
    Cursor.moveTo ⟨w ++ rest, line, column⟩ rest = ⟨rest, line, column + w.length⟩ := by
  have hbreak := not_isBreak_of_isWordChar hw
  have hcount : w.countP isBreak = 0 := List.countP_eq_zero.mpr fun c hc => by simp [hbreak c hc]
  rw [Cursor.moveTo_append, hcount, columnAfter_of_no_break column hbreak, Nat.add_zero]

theorem pushPlain_eq (indents : List Nat) {t : PlainText}
    (hread : readPlain false ((indents.head?.map (· + 1)).getD 0) column rest = some t) :
    pushPlain ⟨⟨rest, line, column⟩, tokens, indents, [none], allowed⟩ =
      (pushNode ⟨⟨rest, line, column⟩, tokens, indents, [none], allowed⟩
        (.scalar true t.text, t.rest)).map (·.allow t.fresh) := by
  show (readPlain false ((indents.head?.map (· + 1)).getD 0) column rest).bind _ = _
  rw [hread, Option.bind_some]
  cases pushNode ⟨⟨rest, line, column⟩, tokens, indents, [none], allowed⟩
    (.scalar true t.text, t.rest) <;> rfl

theorem pushNode_pending (t : Token) (after : List Char) :
    pushNode ⟨⟨rest, line, column⟩, tokens, indents, [none], true⟩ (t, after) =
      some ⟨Cursor.moveTo ⟨rest, line, column⟩ after, tokens ++ [t], indents,
        [some ⟨tokens.length, line, column, indents.head? == some column⟩], false⟩ := rfl

theorem pushNode_value (t : Token) (after : List Char) :
    pushNode ⟨⟨rest, line, column⟩, tokens, indents, keys, false⟩ (t, after) =
      some ⟨Cursor.moveTo ⟨rest, line, column⟩ after, tokens ++ [t], indents, keys, false⟩ := rfl

theorem mark_not_mem_of_isWordChar (hc : isWordChar c = true) :
    c ∉ "#,[]\x7B\x7D&*!|>\x27\"%@\x60".toList := by
  simp only [String.reduceToList, List.mem_cons, List.not_mem_nil, or_false, not_or]
  refine ⟨?_, ?_, ?_, ?_, ?_, ?_, ?_, ?_, ?_, ?_, ?_, ?_, ?_, ?_, ?_, ?_⟩ <;>
    exact ne_of_isWordChar hc (by decide)

theorem pushNext_word (hcs : w ++ rest = c :: cs) (hw : ∀ c ∈ w, isWordChar c = true)
    (hne : w ≠ []) :
    pushNext ⟨⟨w ++ rest, line, column⟩, tokens, indents, [none], allowed⟩ c cs =
      pushPlain ⟨⟨w ++ rest, line, column⟩, tokens, indents, [none], allowed⟩ := by
  have hc : isWordChar c = true := by
    obtain ⟨a, v, rfl⟩ := List.exists_cons_of_ne_nil hne
    rw [← (List.cons.inj hcs).1]
    exact hw a List.mem_cons_self
  refine pushNext_plain (fun _ => hc) rfl (mark_not_mem_of_isWordChar hc)
    (not_isGapChar_of_isWordChar hc) fun hsign => ?_
  rcases hsign with rfl | rfl | rfl <;> exact absurd hc (by decide)

theorem startsToken_word (hw : ∀ c ∈ w, isWordChar c = true) (hne : w ≠ []) :
    startsToken (w ++ rest) = true := by
  obtain ⟨c, v, rfl⟩ := List.exists_cons_of_ne_nil hne
  have hc := hw c List.mem_cons_self
  have hhash : c ≠ '#' := ne_of_isWordChar hc (by decide)
  have hmark : c ≠ byteOrderMark := ne_of_isWordChar hc (by decide)
  simp [startsToken, not_isGapChar_of_isWordChar hc, hhash, hmark]

theorem pushNext_key (hw : ∀ c ∈ w, isWordChar c = true) (hne : w ≠ [])
    (hcs : w ++ ':' :: rest = c :: cs) (hrest : startsGap rest = true) :
    pushNext ⟨⟨w ++ ':' :: rest, line, column⟩, tokens, indents, [none], true⟩ c cs =
      some ⟨⟨':' :: rest, line, column + w.length⟩, tokens ++ [.scalar true w], indents,
        [some ⟨tokens.length, line, column, indents.head? == some column⟩], false⟩ := by
  rw [pushNext_word hcs hw hne, pushPlain_eq indents (readPlain_key hw hne hrest),
    pushNode_pending, moveTo_word hw]
  rfl

theorem unroll_of_le (h : ∀ n, indents.head? = some n → n ≤ column) :
    unroll ⟨⟨rest, line, k⟩, tokens, indents, [key], allowed⟩ (some column) =
      ⟨⟨rest, line, k⟩, tokens, indents, [key], allowed⟩ := by
  have hstop : ∀ n, indents.head? = some n → decide (column < n) = false := fun n hn => by
    have := h n hn
    simp
    omega
  simp only [unroll, isFlow, List.length_singleton, Nat.lt_irrefl, decide_false,
    Bool.false_eq_true, if_false, Option.all_some]
  cases indents with
  | nil => simp
  | cons n indents => simp [hstop n rfl]

theorem settle_space (hrest : startsToken rest = true)
    (hindents : ∀ n, indents.head? = some n → n ≤ column + 1) :
    settle ⟨⟨' ' :: rest, line, column⟩, tokens, indents, [none], allowed⟩ =
      some ⟨⟨rest, line, column + 1⟩, tokens, indents, [none], allowed⟩ :=
  (settle_spaces (k := 1) hrest).trans (congrArg some (unroll_of_le hindents))

def opening (column : Nat) (indents : List Nat) : List Token :=
  if indents.head?.all fun n => decide (n < column) then [.blockMapping] else []

def opened (column : Nat) (indents : List Nat) : List Nat :=
  if indents.head?.all fun n => decide (n < column) then column :: indents else indents

/-- The scanner is at the beginning of a line, in front of which everything is settled. -/
structure Ready (rest : List Char) (column : Nat) (tokens : List Token) (indents : List Nat)
    (s : Scanner) : Prop where
  settled : ∃ line, s.settle = some ⟨⟨rest, line, column⟩, tokens, indents, [none], true⟩
  length_le : rest.length ≤ s.cursor.rest.length

theorem pushNext_colon {required : Bool} (hrest : startsGap rest = true) :
    pushNext ⟨⟨':' :: rest, line, k⟩, tokens ++ [.scalar true w], indents,
        [some ⟨tokens.length, line, column, required⟩], false⟩ ':' rest =
      some ⟨⟨rest, line, k + 1⟩,
        tokens ++ (opening column indents ++ [.key, .scalar true w, .value]),
        opened column indents, [none], false⟩ := by
  have hvalue : pushNext ⟨⟨':' :: rest, line, k⟩, tokens ++ [.scalar true w], indents,
      [some ⟨tokens.length, line, column, required⟩], false⟩ ':' rest =
      pushValue ⟨⟨':' :: rest, line, k⟩, tokens ++ [.scalar true w], indents,
        [some ⟨tokens.length, line, column, required⟩], false⟩ := by
    simp [pushNext, isMarker, hrest]
  rw [hvalue, pushValue]
  simp only [List.head?_cons, Option.join_some, List.take_left, List.drop_left, roll, isFlow,
    List.length_singleton, Nat.lt_irrefl, decide_false, Bool.not_false, Bool.true_and, opening,
    opened]
  have hcursor : Cursor.drop ⟨':' :: rest, line, k⟩ 1 = ⟨rest, line, k + 1⟩ := drop_one ..
  split <;> simp [push, hcursor]

theorem settle_pending (hk : k ≤ column + keyLimit)
    (hindents : ∀ n, indents.head? = some n → n ≤ k) {position : Nat} {required : Bool} :
    settle ⟨⟨':' :: rest, line, k⟩, tokens, indents, [some ⟨position, line, column, required⟩],
      false⟩ =
      some ⟨⟨':' :: rest, line, k⟩, tokens, indents, [some ⟨position, line, column, required⟩],
        false⟩ := by
  have hfresh : isStale ⟨⟨':' :: rest, line, k⟩, tokens, indents,
      [some ⟨position, line, column, required⟩], false⟩ ⟨position, line, column, required⟩ =
      false := by
    simp only [isStale, Nat.lt_irrefl, decide_false, Bool.false_or, decide_eq_false_iff_not]
    omega
  rw [settle, skipGap_here (by rfl), dropStale_pending rfl hfresh]
  exact congrArg some (unroll_of_le hindents)

theorem run_key (h : Ready (w ++ ':' :: rest) column tokens indents s)
    (hw : ∀ c ∈ w, isWordChar c = true) (hne : w ≠ []) (hlength : w.length ≤ keyLimit)
    (hrest : startsGap rest = true) (hindents : ∀ n, indents.head? = some n → n ≤ column) :
    ∃ line, Run s ⟨⟨rest, line, column + w.length + 1⟩,
      tokens ++ (opening column indents ++ [.key, .scalar true w, .value]),
      opened column indents, [none], false⟩ := by
  obtain ⟨line, hsettle⟩ := h.settled
  obtain ⟨c, v, rfl⟩ := List.exists_cons_of_ne_nil hne
  have hle := h.length_le
  simp only [List.length_append, List.length_cons] at hle
  refine ⟨line, .step hsettle rfl (pushNext_key hw hne rfl hrest) ?_
    (.step (settle_pending ?_ ?_) rfl (pushNext_colon hrest) ?_ (.stop _))⟩
  · simp only [List.length_cons]
    omega
  · omega
  · intro n hn
    have := hindents n hn
    omega
  · simp

def closing (column : Nat) (indents : List Nat) : List Token :=
  (indents.takeWhile fun n => decide (column < n)).map fun _ => .blockEnd

def closed (column : Nat) (indents : List Nat) : List Nat :=
  indents.dropWhile fun n => decide (column < n)

theorem closing_top : closing 0 [0] = [] := rfl

theorem closed_top : closed 0 [0] = [0] := rfl

theorem unroll_eq (column : Nat) :
    unroll ⟨⟨rest, line, k⟩, tokens, indents, [key], allowed⟩ (some column) =
      ⟨⟨rest, line, k⟩, tokens ++ closing column indents, closed column indents, [key], allowed⟩ :=
  rfl

theorem ready_here (hrest : startsToken rest = true) :
    Ready rest k (tokens ++ closing k indents) (closed k indents)
      ⟨⟨rest, line, k⟩, tokens, indents, [none], true⟩ := by
  refine ⟨⟨line, ?_⟩, Nat.le_refl _⟩
  rw [settle, skipGap_here hrest, dropStale_none]
  rfl

theorem ready_line (hrest : startsToken rest = true) :
    Ready rest k (tokens ++ closing k indents) (closed k indents)
      ⟨⟨'\n' :: (spaces k ++ rest), line, column⟩, tokens, indents, [none], allowed⟩ := by
  refine ⟨⟨line + 1, by rw [settle_line hrest, unroll_eq]⟩, ?_⟩
  simp only [List.length_cons, List.length_append]
  omega

theorem pushNext_single {t : List Char} (hread : readSingle cs = some (t, rest)) :
    s.pushNext '\x27' cs = s.pushNode (.scalar false t, rest) := by
  simp [pushNext, isMarker, hread]

theorem pushNext_double {t : List Char} (hread : readDouble cs = some (t, rest)) :
    s.pushNext '"' cs = s.pushNode (.scalar false t, rest) := by
  simp [pushNext, isMarker, hread]

theorem pushNext_block {outer : Nat} {t : List Char}
    (hread : readBlock true (some outer) cs = some (t, rest)) :
    pushNext ⟨⟨c :: cs, line, column⟩, tokens, outer :: indents, [none], allowed⟩ '|' cs =
      some ⟨Cursor.moveTo ⟨c :: cs, line, column⟩ rest, tokens ++ [.scalar false t],
        outer :: indents, [none], true⟩ := by
  have hblock : pushNext ⟨⟨c :: cs, line, column⟩, tokens, outer :: indents, [none], allowed⟩ '|'
      cs =
      pushBlock ⟨⟨c :: cs, line, column⟩, tokens, outer :: indents, [none], allowed⟩ true cs := by
    simp [pushNext, isMarker, isFlow]
  rw [hblock, pushBlock]
  show (readBlock true (some outer) cs).bind _ = _
  rw [hread]
  rfl

def isWrittenPlain (v : String) : Bool := decide (Style.of v.toList = .plain)

theorem moveTo_line (xs : List Char) (hxs : ∃ ys c, xs = ys ++ [c] ∧ isBreak c = true) :
    ∃ line', Cursor.moveTo ⟨xs ++ (spaces k ++ rest), line, column⟩ rest = ⟨rest, line', k⟩ := by
  obtain ⟨ys, c, rfl, hc⟩ := hxs
  refine ⟨line + (ys ++ [c] ++ spaces k).countP isBreak, ?_⟩
  rw [← List.append_assoc, Cursor.moveTo_append, columnAfter_append, columnAfter_append,
    columnAfter_cons, hc, if_pos rfl, columnAfter_spaces]
  exact congrArg (Cursor.mk rest _) (Nat.zero_add k)

/-- What is written here is read as one token, after which the next line is ready. -/
def ReadsAs (t : Token) (written rest : List Char) (line column k : Nat) (tokens : List Token)
    (indents : List Nat) : Prop :=
  ∃ c cs s, written ++ (spaces k ++ rest) = c :: cs ∧
    pushNext ⟨⟨c :: cs, line, column⟩, tokens, indents, [none], false⟩ c cs = some s ∧
    s.cursor.rest.length ≤ cs.length ∧
    Ready rest k (tokens ++ [t] ++ closing k indents) (closed k indents) s

section Styles

variable {outer : Nat} {v : String}

theorem readsAs_plain (hstyle : Style.of v.toList = .plain) (hcolumn : outer < column)
    (hk : k ≤ outer) (hrest : startsToken rest = true) :
    ReadsAs (.scalar true v.toList) (writeText (outer + 2) v) rest line column k tokens
      (outer :: indents) := by
  obtain ⟨c, u, hv⟩ := List.exists_cons_of_ne_nil (ne_nil_of_style_plain hstyle)
  have hwritten : writeText (outer + 2) v = c :: u ++ ['\n'] := by
    simp only [writeText, hstyle, ← hv]
  have hplain := (of_style_plain hstyle).2
  rw [hv] at hplain ⊢
  have hread := readPlain_line hplain (List.cons_ne_nil c u) (show outer + 1 ≤ column by omega)
    (by omega) (show k < outer + 1 by omega) hrest
  rw [← List.singleton_append (l := spaces k ++ rest), ← List.append_assoc] at hread
  obtain ⟨line', hmove⟩ := @moveTo_line rest line column k (c :: u ++ ['\n']) ⟨_, _, rfl, by decide⟩
  have his := isPlain_of_isPlainAllowed hplain
  simp only [isPlainAllowed, Bool.not_eq_true', Bool.or_eq_false_iff] at hplain
  obtain ⟨hmark, hsign⟩ := of_not_startsIndicator hplain.1.1.1.1.1
  have hgap (hc : c = '?' ∨ c = ':' ∨ c = '-') :
      startsGap (u ++ ['\n'] ++ (spaces k ++ rest)) = false := by
    have hnext := hsign hc
    cases u with
    | nil => exact absurd hnext (by decide)
    | cons d u =>
      simp only [endsWord, List.head?_cons, Option.all_some, isAnyBreak, Bool.or_eq_false_iff]
        at hnext
      exact not_isGapChar_iff.mpr ⟨hnext.1, hnext.2.1.1⟩
  refine ⟨c, u ++ ['\n'] ++ (spaces k ++ rest),
    ⟨⟨rest, line', k⟩, tokens ++ [.scalar true (c :: u)], outer :: indents, [none], true⟩,
    by rw [hwritten]; rfl, ?_, by simp; omega, ready_here hrest⟩
  rw [pushNext_plain (fun hzero => absurd hzero (by simp; omega)) rfl hmark (his.head_gap c rfl)
    hgap]
  refine (pushPlain_eq (outer :: indents) hread).trans ?_
  rw [pushNode_value, hmove]
  rfl

theorem readsAs_single (hstyle : Style.of v.toList = .single) (hrest : startsToken rest = true) :
    ReadsAs (.scalar false v.toList) (writeText (outer + 2) v) rest line column k tokens
      (outer :: indents) := by
  have hsingle := isSingle_of_isSingleAllowed (of_style_single hstyle).2 (of_style_single hstyle).1
  have hwritten : writeText (outer + 2) v ++ (spaces k ++ rest) = '\x27' ::
      (writeSingle (outer + 2) false v.toList ++ '\n' :: (spaces k ++ rest)) := by
    simp [writeText, hstyle]
  have hread := readSingle_writeSingle hsingle (show 0 < outer + 2 by omega)
    (show ('\n' :: (spaces k ++ rest)).head? ≠ some '\x27' by simp)
  refine ⟨_, _, _, hwritten, (pushNext_single hread).trans (pushNode_value _ _), ?_,
    ready_line hrest⟩
  simp only [length_moveTo, List.length_cons, List.length_append]
  omega

theorem readsAs_double (hstyle : Style.of v.toList = .double) (hrest : startsToken rest = true) :
    ReadsAs (.scalar false v.toList) (writeText (outer + 2) v) rest line column k tokens
      (outer :: indents) := by
  have hwritten : writeText (outer + 2) v ++ (spaces k ++ rest) = '"' ::
      (v.toList.flatMap escapeChar ++ '"' :: '\n' :: (spaces k ++ rest)) := by
    simp [writeText, hstyle]
  refine ⟨_, _, _, hwritten, (pushNext_double (readDouble_escapes _ _)).trans (pushNode_value _ _),
    ?_, ready_line hrest⟩
  simp only [length_moveTo, List.length_cons, List.length_append]
  omega

theorem exists_written_block (hstyle : Style.of v.toList = .block) : ∃ ys c,
    blockSigns v.toList ++ '\n' :: (writeLines (outer + 2) true v.toList ++
      (if v.toList.getLast?.any isBreak then [] else ['\n'])) = ys ++ [c] ∧ isBreak c = true := by
  obtain ⟨d, hd⟩ := Option.isSome_iff_exists.mp
    (List.getLast?_isSome.mpr (ne_nil_of_style_block hstyle))
  obtain ⟨u, hu⟩ := List.getLast?_eq_some_iff.mp hd
  by_cases hbreak : isBreak d = true
  · have hwritten := @writeLines_append u [d] (outer + 2) true (by simpa using hbreak)
    refine ⟨blockSigns v.toList ++ '\n' :: writeLines (outer + 2) true u, d, ?_, hbreak⟩
    simp only [hd, Option.any_some, hbreak, if_true, List.append_nil]
    rw [hu, hwritten]
    simp
  · refine ⟨blockSigns v.toList ++ '\n' :: writeLines (outer + 2) true v.toList, '\n', ?_,
      by decide⟩
    simp [hd, hbreak]

theorem readsAs_block (hstyle : Style.of v.toList = .block) (hk : k ≤ outer)
    (hrest : startsToken rest = true) :
    ReadsAs (.scalar false v.toList) (writeText (outer + 2) v) rest line column k tokens
      (outer :: indents) := by
  have htab : v.toList.head? ≠ some '\t' := fun htab =>
    ne_of_isPrintable (printable_of_not_needsEscapes
      (not_needsEscapes_of_block (of_style_block hstyle).2) _ (List.mem_of_head? htab))
      (by decide) rfl
  have hread := readBlock_writeLines (ne_nil_of_style_block hstyle) htab hk hrest
  obtain ⟨ys, c, hends, hc⟩ := @exists_written_block outer v hstyle
  have hwritten : writeText (outer + 2) v ++ (spaces k ++ rest) =
      '|' :: (ys ++ [c]) ++ (spaces k ++ rest) := by
    rw [← hends]
    simp [writeText, hstyle]
  have hread : readBlock true (some outer) (ys ++ [c] ++ (spaces k ++ rest)) =
      some (v.toList, rest) := by
    rw [← hends]
    simpa using hread
  obtain ⟨line', hmove⟩ :=
    @moveTo_line rest line column k ('|' :: (ys ++ [c])) ⟨'|' :: ys, c, rfl, hc⟩
  refine ⟨'|', ys ++ [c] ++ (spaces k ++ rest),
    ⟨⟨rest, line', k⟩, tokens ++ [.scalar false v.toList], outer :: indents, [none], true⟩,
    hwritten, ?_, by simp; omega, ready_here hrest⟩
  rw [List.cons_append] at hmove
  rw [pushNext_block hread, hmove]

theorem readsAs_writeText (v : String) (hcolumn : outer < column) (hk : k ≤ outer)
    (hrest : startsToken rest = true) :
    ReadsAs (.scalar (isWrittenPlain v) v.toList) (writeText (outer + 2) v) rest line column k
      tokens (outer :: indents) := by
  rw [isWrittenPlain]
  cases hstyle : Style.of v.toList with
  | plain => exact readsAs_plain hstyle hcolumn hk hrest
  | single => exact readsAs_single hstyle hrest
  | double => exact readsAs_double hstyle hrest
  | block => exact readsAs_block hstyle hk hrest

end Styles

/-- The value of a key is read, up to the beginning of the next line. -/
theorem run_value {outer : Nat} (v : String) (hcolumn : outer < column) (hk : k ≤ outer)
    (hrest : startsToken rest = true) :
    ∃ s', Run ⟨⟨' ' :: (writeText (outer + 2) v ++ (spaces k ++ rest)), line, column⟩, tokens,
        outer :: indents, [none], false⟩ s' ∧
      Ready rest k (tokens ++ (.scalar (isWrittenPlain v) v.toList :: closing k (outer :: indents)))
        (closed k (outer :: indents)) s' := by
  have hsettle := @settle_space _ line column tokens (outer :: indents) false
    (startsToken_writeText (outer + 2) v (spaces k ++ rest)) (by rintro n ⟨⟩; omega)
  obtain ⟨c, cs, s', hwritten, hnext, hlength, hready⟩ := @readsAs_writeText rest line (column + 1)
    k tokens indents outer v (by omega) hk hrest
  rw [hwritten] at hsettle ⊢
  refine ⟨s', .step hsettle rfl hnext ?_ (.stop s'), ?_⟩
  · simp only [List.length_cons]
    omega
  · rwa [List.append_assoc] at hready

theorem opened_eq (h : ∀ n, indents.head? = some n → n ≤ column) :
    ∃ outer, opened column indents = column :: outer := by
  unfold opened
  cases indents with
  | nil => exact ⟨[], rfl⟩
  | cons n indents =>
    have hn := h n rfl
    by_cases hlt : n < column
    · exact ⟨n :: indents, by simp [hlt]⟩
    · obtain rfl : n = column := by omega
      exact ⟨indents, by simp⟩

def entryTokens (key : List Char) (v : String) : List Token :=
  [.key, .scalar true key, .value, .scalar (isWrittenPlain v) v.toList]

/-- An entry is read, up to the beginning of the next line. -/
theorem run_entry {v : String}
    (h : Ready (w ++ ':' :: ' ' :: (writeText (column + 2) v ++ (spaces k ++ rest))) column tokens
      indents s)
    (hw : ∀ c ∈ w, isWordChar c = true) (hne : w ≠ []) (hlength : w.length ≤ keyLimit)
    (hindents : ∀ n, indents.head? = some n → n ≤ column) (hk : k ≤ column)
    (hrest : startsToken rest = true) :
    ∃ s', Run s s' ∧ Ready rest k
      (tokens ++ (opening column indents ++ entryTokens w v ++ closing k (opened column indents)))
      (closed k (opened column indents)) s' := by
  obtain ⟨line, hkey⟩ := run_key h hw hne hlength rfl hindents
  obtain ⟨outer, houter⟩ := opened_eq hindents
  rw [houter] at hkey ⊢
  obtain ⟨s', hvalue, hready⟩ := @run_value rest line (column + w.length + 1) k
    (tokens ++ (opening column indents ++ [.key, .scalar true w, .value])) outer column v
    (by omega) hk hrest
  refine ⟨s', hkey.trans hvalue, ?_⟩
  simpa [entryTokens] using hready

theorem pushNext_open :
    pushNext ⟨⟨'[' :: rest, line, column⟩, tokens, indents, [none], false⟩ '[' rest =
      some ⟨⟨rest, line, column + 1⟩, tokens ++ [.flowSequence], indents, [none, none], true⟩ := by
  have hcursor : Cursor.drop ⟨'[' :: rest, line, column⟩ 1 = ⟨rest, line, column + 1⟩ := drop_one ..
  simp [pushNext, isMarker, openBracket, saveKey, push, hcursor]

theorem pushNext_close (hcolumn : column ≠ 0) :
    pushNext ⟨⟨']' :: rest, line, column⟩, tokens, indents, [none, none], true⟩ ']' rest =
      some ⟨⟨rest, line, column + 1⟩, tokens ++ [.flowSequenceEnd], indents, [none], false⟩ := by
  have hcursor : Cursor.drop ⟨']' :: rest, line, column⟩ 1 = ⟨rest, line, column + 1⟩ := drop_one ..
  simp [pushNext, hcolumn, closeBracket, dropKey, isFlow, push, hcursor]

theorem run_empty {outer : Nat} (hcolumn : outer < column)
    (hrest : startsToken rest = true) :
    ∃ s', Run ⟨⟨' ' :: '[' :: ']' :: '\n' :: (spaces k ++ rest), line, column⟩, tokens,
        outer :: indents, [none], false⟩ s' ∧
      Ready rest k (tokens ++ ([.flowSequence, .flowSequenceEnd] ++ closing k (outer :: indents)))
        (closed k (outer :: indents)) s' := by
  have hflow : settle ⟨⟨']' :: '\n' :: (spaces k ++ rest), line, column + 2⟩,
      tokens ++ [.flowSequence], outer :: indents, [none, none], true⟩ =
      some ⟨⟨']' :: '\n' :: (spaces k ++ rest), line, column + 2⟩, tokens ++ [.flowSequence],
        outer :: indents, [none, none], true⟩ := by
    rw [settle, skipGap_here rfl]
    rfl
  refine ⟨_, .step (settle_space rfl ?_) rfl pushNext_open ?_
    (.step hflow rfl (pushNext_close (by omega)) ?_ (.stop _)), ?_⟩
  · rintro n ⟨⟩
    omega
  · simp
  · simp
  · have hready := @ready_line rest line (column + 3) k
      (tokens ++ [.flowSequence] ++ [.flowSequenceEnd]) (outer :: indents) false hrest
    simpa using hready

theorem isPlain_word (hw : ∀ c ∈ w, isWordChar c = true) : IsPlain w := by
  have hne {c d : Char} (hd : isWordChar d = false) (hc : c ∈ w) : c ≠ d :=
    ne_of_isWordChar (hw c hc) hd
  have hnone {p : Char → Char → Bool} (hp : ∀ c ∈ w, ∀ d ∈ w, p c d = false) :
      anyNeighbours p w = false :=
    anyNeighbours_mono (p := fun _ _ => false) (by simp [anyNeighbours])
      fun c hc d hd h => absurd h (by simp [hp c hc d hd])
  refine ⟨fun c hc hgap => ?_, hnone fun b _ c hc => ?_, hnone fun c hc d _ => ?_, fun h => ?_,
    fun h => ?_, fun c hc => ?_, fun h => ?_⟩
  · rw [not_isGapChar_of_isWordChar (hw c hc)] at hgap
    exact absurd hgap (by decide)
  · simp [hne (by decide : isWordChar '#' = false) hc]
  · simp [hne (by decide : isWordChar ':' = false) hc]
  · exact hne (by decide) (List.mem_of_getLast? h) rfl
  · exact hne (by decide) (List.mem_of_getLast? h) rfl
  · exact not_isGapChar_of_isWordChar (hw c (List.mem_of_head? hc))
  · exact hne (by decide) (List.mem_of_head? h) rfl

theorem pushNext_dash (hrest : startsGap rest = true) :
    pushNext ⟨⟨'-' :: rest, line, 0⟩, tokens, 0 :: indents, [none], true⟩ '-' rest =
      some ⟨⟨rest, line, 1⟩, tokens ++ [.blockEntry], 0 :: indents, [none], true⟩ := by
  have hcursor : Cursor.drop ⟨'-' :: rest, line, 0⟩ 1 = ⟨rest, line, 1⟩ := drop_one ..
  cases rest with
  | nil => simp [pushNext, isMarker, rollHere, roll, isFlow, dropKey, push, allow, hcursor, hrest]
  | cons c rest =>
    have hc : c ≠ '-' := by
      rintro rfl
      exact absurd hrest (by simp [startsGap]; decide)
    simp [pushNext, isMarker, rollHere, roll, isFlow, dropKey, push, allow, hcursor, hrest, hc]

theorem pushNext_wordLine (hw : ∀ c ∈ w, isWordChar c = true) (hcs : w ++ '\n' :: rest = c :: cs)
    (hne : w ≠ []) (hrest : startsToken rest = true) :
    pushNext ⟨⟨w ++ '\n' :: rest, line, 2⟩, tokens, 0 :: indents, [none], true⟩ c cs =
      some ⟨⟨rest, line + 1, 0⟩, tokens ++ [.scalar true w], 0 :: indents,
        [some ⟨tokens.length, line, 2, false⟩], true⟩ := by
  have hread : readPlain false 1 2 (w ++ '\n' :: rest) = some ⟨w, rest, true⟩ :=
    plainFrom_line (k := 0) (isPlain_word hw) hne (by simp; omega) (by omega) (by omega) (by simp)
      (by omega) hrest
  have hmove : Cursor.moveTo ⟨w ++ '\n' :: rest, line, 2⟩ rest = ⟨rest, line + 1, 0⟩ := by
    have hcount : (w ++ ['\n']).countP isBreak = 1 := by
      rw [List.countP_append, List.countP_eq_zero.mpr fun c hc => by
        simp [not_isBreak_of_isWordChar hw c hc]]
      rfl
    rw [← List.singleton_append, ← List.append_assoc, Cursor.moveTo_append, hcount,
      columnAfter_append]
    rfl
  rw [pushNext_word hcs hw hne, pushPlain_eq (0 :: indents) hread, pushNode_pending, hmove]
  rfl

theorem run_item (h : Ready ('-' :: ' ' :: (w ++ '\n' :: rest)) 0 tokens (0 :: indents) s)
    (hw : ∀ c ∈ w, isWordChar c = true) (hne : w ≠ []) (hrest : startsToken rest = true) :
    ∃ s', Run s s' ∧ Ready rest 0 (tokens ++ [.blockEntry, .scalar true w]) (0 :: indents) s' := by
  obtain ⟨line, hsettle⟩ := h.settled
  have hle := h.length_le
  obtain ⟨c, v, rfl⟩ := List.exists_cons_of_ne_nil hne
  refine ⟨_, .step hsettle rfl (pushNext_dash rfl) ?_ (.step (settle_space ?_ ?_) rfl
    (pushNext_wordLine hw rfl hne hrest) ?_ (.stop _)), ?_⟩
  · simp only [List.length_cons] at hle ⊢
    omega
  · exact startsToken_word hw hne
  · rintro n ⟨⟩
    omega
  · simp
    omega
  · refine ⟨⟨line + 1, ?_⟩, Nat.le_refl _⟩
    rw [settle, skipGap_here hrest, dropStale_stale rfl (by simp [isStale]) rfl]
    refine congrArg some ((unroll_of_le fun n hn => by cases hn; omega).trans ?_)
    rw [List.append_assoc]
    rfl

/-- Items on lines of their own are read one after the other. -/
theorem run_items {words : List (List Char)}
    (hwords : ∀ w ∈ words, w ≠ [] ∧ ∀ c ∈ w, isWordChar c = true) (hrest : startsToken rest = true)
    (h : Ready (words.flatMap (fun w => '-' :: ' ' :: (w ++ ['\n'])) ++ rest) 0 tokens
      (0 :: indents) s) :
    ∃ s', Run s s' ∧ Ready rest 0
      (tokens ++ words.flatMap fun w => [.blockEntry, .scalar true w]) (0 :: indents) s' := by
  induction words generalizing tokens s with
  | nil => exact ⟨s, .stop s, by simpa using h⟩
  | cons w words ih =>
    obtain ⟨hw, hwords⟩ := List.forall_mem_cons.mp hwords
    have hnext :
        startsToken (words.flatMap (fun w => '-' :: ' ' :: (w ++ ['\n'])) ++ rest) = true := by
      cases words with
      | nil => exact hrest
      | cons _ _ => rfl
    obtain ⟨s₁, hrun, hready⟩ := run_item (w := w) (by simpa using h) hw.2 hw.1 hnext
    obtain ⟨s', hrun', hready'⟩ := ih hwords hready
    exact ⟨s', hrun.trans hrun', by simpa using hready'⟩

end Scanner

/-- The tokens of printable characters that are read to their end in a single open mapping. -/
theorem tokens?_of_run {cs : List Char} {tokens : List Token}
    (hprint : ∀ c ∈ cs, isPrintable c = true) (hstart : startsToken cs = true)
    (hrun : ∀ s, Scanner.Ready cs 0 [] [] s →
      ∃ s', Scanner.Run s s' ∧ Scanner.Ready [] 0 tokens [0] s') :
    tokens? cs = some (tokens ++ [.blockEnd]) := by
  have hallowed : cs.all isAllowed = true :=
    List.all_eq_true.mpr fun c hc => isAllowed_of_isPrintable (hprint c hc)
  have hfirst : Scanner.Ready cs 0 ([] ++ Scanner.closing 0 []) (Scanner.closed 0 [])
    ⟨⟨cs, 0, 0⟩, [], [], [none], true⟩ := Scanner.ready_here hstart
  obtain ⟨s', hrun, hready⟩ := hrun _ hfirst
  obtain ⟨line, hsettle⟩ := hready.settled
  rw [tokens?, if_pos hallowed, unifyBreaks_of_printable hprint]
  exact Scanner.scan_of_run hrun hsettle rfl (Nat.lt_succ_self _)

end MailMerge.Yaml
