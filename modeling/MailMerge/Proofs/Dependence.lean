import MailMerge.Proofs.Segmentation
import MailMerge.Rendering

/-! # What an email depends on

A document contains every token that is written in it, while rendering takes tokens from the left
and never twice the same letter. So a token that starts with the last letters of one taken before
it is contained and has no influence on the email; no other token is lost.
-/

namespace MailMerge

namespace Placeholder

/-- Tokens share no more than the delimiter: what starts inside a token starts with its last
letters. -/
theorem length_le_of_prefix_drop {p q : Placeholder} {j : Nat} {rest : List Char} (hj : 0 < j)
    (h : p.tokenChars <+: q.tokenChars.drop j ++ rest) : q.tokenChars.length ≤ j + 2 := by
  have hstart : p.tokenChars.take 3 = ['%', '%', 'E'] := by cases p <;> rfl
  have hother : ∀ j < q.tokenChars.length, 0 < j → j + 3 ≤ q.tokenChars.length →
      (q.tokenChars.drop j).take 3 ≠ ['%', '%', 'E'] := by
    cases q <;> decide
  refine Nat.not_lt.mp fun hlt => ?_
  have hle : 3 ≤ (q.tokenChars.drop j).length := by
    rw [List.length_drop]
    omega
  refine hother j (by omega) hj (by omega) ?_
  obtain ⟨rest', hrest'⟩ := h
  have htake := congrArg (List.take 3) hrest'
  rw [List.take_append_of_le_length (by cases p <;> decide), hstart,
    List.take_append_of_le_length hle] at htake
  exact htake.symm

theorem two_lt_length_tokenChars (p : Placeholder) : 2 < p.tokenChars.length := by
  cases p <;> decide

end Placeholder

namespace Segmentation

variable {parts rest : List (List Char × Placeholder)} {last doc : List Char} {p q : Placeholder}
  {e : List Char × Placeholder} {i j : Nat}

/-- The token of `p` is taken at position `i` of the text. -/
def TakesAt (parts : List (List Char × Placeholder)) (p : Placeholder) (i : Nat) : Prop :=
  ∃ before literal after, parts = before ++ (literal, p) :: after ∧
    i = (covered before).length + literal.length

theorem not_takesAt_nil : ¬ TakesAt [] p i := by
  rintro ⟨before, literal, after, heq, -⟩
  simp at heq

theorem takesAt_cons_iff : TakesAt (e :: rest) p i ↔
    (e.2 = p ∧ i = e.1.length) ∨ ∃ k, TakesAt rest p k ∧
      i = e.1.length + e.2.tokenChars.length + k := by
  constructor
  · rintro ⟨before, literal, after, heq, rfl⟩
    rcases List.cons_eq_append_iff.mp heq with ⟨rfl, hcons⟩ | ⟨before', rfl, htail⟩
    · obtain ⟨rfl, rfl⟩ := List.cons.inj hcons
      exact .inl ⟨rfl, by simp⟩
    · refine .inr ⟨_, ⟨before', literal, after, htail, rfl⟩, ?_⟩
      simp only [covered_cons, List.length_append]
      omega
  · rintro (⟨rfl, rfl⟩ | ⟨k, ⟨before, literal, after, rfl, rfl⟩, rfl⟩)
    · exact ⟨[], e.1, rest, rfl, by simp⟩
    · refine ⟨e :: before, literal, after, rfl, ?_⟩
      simp only [covered_cons, List.length_append]
      omega

theorem exists_takesAt_iff : (∃ i, TakesAt parts p i) ↔ p ∈ parts.map Prod.snd := by
  constructor
  · rintro ⟨i, before, literal, after, rfl, -⟩
    simp
  · intro h
    obtain ⟨⟨literal, q⟩, hmem, rfl⟩ := List.mem_map.mp h
    obtain ⟨before, after, rfl⟩ := List.append_of_mem hmem
    exact ⟨_, before, literal, after, rfl, rfl⟩

/-- Two tokens that are taken are the same one, or one ends before the other starts. -/
theorem takesAt_apart (hp : TakesAt parts p i) (hq : TakesAt parts q j) :
    (i = j ∧ p = q) ∨ i + p.tokenChars.length ≤ j ∨ j + q.tokenChars.length ≤ i := by
  induction parts generalizing i j with
  | nil => exact absurd hp not_takesAt_nil
  | cons e rest ih =>
    rcases takesAt_cons_iff.mp hp with ⟨rfl, rfl⟩ | ⟨k, hk, rfl⟩
    · rcases takesAt_cons_iff.mp hq with ⟨rfl, rfl⟩ | ⟨l, -, rfl⟩
      · exact .inl ⟨rfl, rfl⟩
      · exact .inr (.inl (Nat.le_add_right _ _))
    · rcases takesAt_cons_iff.mp hq with ⟨rfl, rfl⟩ | ⟨l, hl, rfl⟩
      · exact .inr (.inr (Nat.le_add_right _ _))
      · rcases ih hk hl with ⟨rfl, rfl⟩ | hle | hle
        · exact .inl ⟨rfl, rfl⟩
        · exact .inr (.inl (by omega))
        · exact .inr (.inr (by omega))

theorem prefix_of_takesAt (h : TakesAt parts p i) :
    p.tokenChars <+: (covered parts ++ last).drop i := by
  obtain ⟨before, literal, after, rfl, rfl⟩ := h
  have hsplit : covered (before ++ (literal, p) :: after) ++ last =
      (covered before ++ literal) ++ (p.tokenChars ++ (covered after ++ last)) := by
    simp [covered]
  rw [hsplit, ← List.length_append, List.drop_left]
  exact List.prefix_append _ _

/-- Position `i` is the last or the last but one of a token that is taken. -/
def EndsOver (parts : List (List Char × Placeholder)) (i : Nat) : Prop :=
  ∃ q j, TakesAt parts q j ∧
    (i + 1 = j + q.tokenChars.length ∨ i + 2 = j + q.tokenChars.length)

/-- A token that is written in a text is taken, unless it starts with the last letters of one that
is. -/
theorem takesAt_or_endsOver (h : FirstTaken parts last)
    (hp : p.tokenChars <+: (covered parts ++ last).drop i) :
    TakesAt parts p i ∨ EndsOver parts i := by
  induction parts generalizing i with
  | nil => exact absurd ⟨p, hp⟩ (h i)
  | cons e rest ih =>
    have hnot : ¬ i < e.1.length := fun hi => h.1 i hi ⟨p, hp⟩
    have htext : covered (e :: rest) ++ last =
        e.1 ++ (e.2.tokenChars ++ (covered rest ++ last)) := by simp
    obtain ⟨j, rfl⟩ := Nat.exists_eq_add_of_le (Nat.not_lt.mp hnot)
    rw [htext, List.drop_length_add_append] at hp
    rcases Nat.eq_zero_or_pos j with rfl | hj
    · refine .inl (takesAt_cons_iff.mpr (.inl ⟨?_, rfl⟩))
      rcases List.prefix_or_prefix_of_prefix hp (List.prefix_append _ _) with hpq | hqp
      · exact (Placeholder.eq_of_prefix_tokenChars hpq).symm
      · exact Placeholder.eq_of_prefix_tokenChars hqp
    rcases Nat.lt_or_ge j e.2.tokenChars.length with hlt | hge
    · rw [List.drop_append_of_le_length (Nat.le_of_lt hlt)] at hp
      have hle := Placeholder.length_le_of_prefix_drop hj hp
      exact .inr ⟨e.2, e.1.length, takesAt_cons_iff.mpr (.inl ⟨rfl, rfl⟩), by omega⟩
    · obtain ⟨k, rfl⟩ := Nat.exists_eq_add_of_le hge
      rw [List.drop_length_add_append] at hp
      rcases ih h.2 hp with hk | ⟨q, l, hq, hend⟩
      · exact .inl (takesAt_cons_iff.mpr (.inr ⟨k, hk, by omega⟩))
      · exact .inr ⟨q, _, takesAt_cons_iff.mpr (.inr ⟨l, hq, rfl⟩), by omega⟩

theorem not_endsOver_of_takesAt (h : TakesAt parts p i) : ¬ EndsOver parts i := by
  rintro ⟨q, j, hq, hend⟩
  have hp := p.two_lt_length_tokenChars
  have hlen := q.two_lt_length_tokenChars
  rcases takesAt_apart h hq with ⟨rfl, rfl⟩ | hle | hle <;> omega

theorem length_fill_insert (s : Segmentation) (p : Placeholder) (v : String) :
    (s.fill (Fragments.empty.insert p v)).length =
      (s.fill Fragments.empty).length + (s.parts.map Prod.snd).count p * v.length := by
  obtain ⟨parts, last⟩ := s
  induction parts with
  | nil => simp [fill]
  | cons e rest ih =>
    simp only [fill, List.length_append] at ih
    simp only [fill, List.flatMap_cons, List.length_append, List.map_cons, List.count_cons]
    rw [Fragments.get?_insert, Fragments.get?_empty]
    by_cases hp : e.2 = p
    · simp only [hp, if_true, beq_self_eq_true, Option.getD_some, Option.getD_none,
        String.length_toList, Nat.add_mul, Nat.one_mul]
      have hnil : "".length = 0 := rfl
      omega
    · have hb : (e.2 == p) = false := by simpa using hp
      simp only [hp, if_false, hb, Bool.false_eq_true, Nat.add_zero]
      omega

/-- Only the values of the tokens that are taken count. -/
theorem fill_congr {f g : Fragments} {s : Segmentation}
    (h : ∀ p ∈ s.parts.map Prod.snd, f.get? p = g.get? p) : s.fill f = s.fill g := by
  have heq : ∀ e ∈ s.parts, e.1 ++ ((f.get? e.2).getD "").toList =
      e.1 ++ ((g.get? e.2).getD "").toList := by
    intro e he
    rw [h e.2 (List.mem_map_of_mem he)]
  rw [fill, fill, List.flatMap_def, List.flatMap_def, List.map_congr_left heq]

end Segmentation

namespace Template

open Segmentation

variable {t : Template} {p : Placeholder} {i : Nat}

def segmentation (t : Template) : Segmentation := ofPieces (pieces t.html)

theorem text_segmentation (t : Template) :
    covered t.segmentation.parts ++ t.segmentation.last = t.html.toList :=
  (ofPieces_cut t.html.toList).1

theorem firstTaken_segmentation (t : Template) :
    FirstTaken t.segmentation.parts t.segmentation.last :=
  (ofPieces_cut t.html.toList).2

theorem toList_render (t : Template) (f : Fragments) :
    (t.render f).toList = t.segmentation.fill f := by
  rw [render, substitute, String.toList_ofList, segmentation, fill_ofPieces]

/-- There are an email and two values for `p` in it that give different texts. -/
def DependsOn (t : Template) (p : Placeholder) : Prop :=
  ∃ (f : Fragments) (v w : String), t.render (f.insert p v) ≠ t.render (f.insert p w)

def WritesAt (t : Template) (p : Placeholder) (i : Nat) : Prop :=
  p.tokenChars <+: t.html.toList.drop i

/-- What is written at position `i` starts with the last letters of a token that rendering takes:
with its last one, or with its last two. -/
def HidesAt (t : Template) (i : Nat) : Prop :=
  ∃ s : Segmentation, s.Cuts t.html.toList ∧ EndsOver s.parts i

theorem eq_segmentation_of_cuts {s : Segmentation} (h : s.Cuts t.html.toList) :
    s = t.segmentation := by
  obtain ⟨htext, hfirst⟩ := cuts_iff_firstTaken.mp h
  obtain ⟨hparts, hlast⟩ := eq_of_firstTaken hfirst t.firstTaken_segmentation
    (htext.trans t.text_segmentation.symm)
  cases s
  subst hparts hlast
  rfl

theorem hidesAt_iff : t.HidesAt i ↔ EndsOver t.segmentation.parts i := by
  constructor
  · rintro ⟨s, hs, hends⟩
    rwa [eq_segmentation_of_cuts hs] at hends
  · intro hends
    exact ⟨t.segmentation,
      cuts_iff_firstTaken.mpr ⟨t.text_segmentation, t.firstTaken_segmentation⟩, hends⟩

/-- The text depends on the placeholders whose tokens are taken. -/
theorem dependsOn_iff_mem : t.DependsOn p ↔ p ∈ t.segmentation.parts.map Prod.snd := by
  constructor
  · rintro ⟨f, v, w, hne⟩
    refine Decidable.byContradiction fun hmem => ?_
    refine hne (String.toList_injective ?_)
    rw [toList_render, toList_render]
    refine fill_congr fun q hq => ?_
    have hqp : q ≠ p := fun heq => hmem (heq ▸ hq)
    rw [Fragments.get?_insert, Fragments.get?_insert, if_neg hqp, if_neg hqp]
  · intro hmem
    refine ⟨Fragments.empty, "", "x", fun heq => ?_⟩
    have hlen := congrArg (fun s : String => s.toList.length) heq
    simp only [toList_render, length_fill_insert] at hlen
    have hcount := List.count_pos_iff.mpr hmem
    have hx : "x".length = 1 := rfl
    have hnil : "".length = 0 := rfl
    rw [hx, hnil] at hlen
    omega

theorem dependsOn_iff_writesAt :
    t.DependsOn p ↔ ∃ i, t.WritesAt p i ∧ ¬ t.HidesAt i := by
  rw [dependsOn_iff_mem, ← exists_takesAt_iff]
  constructor
  · rintro ⟨i, hi⟩
    refine ⟨i, ?_, ?_⟩
    · rw [WritesAt, ← text_segmentation]
      exact prefix_of_takesAt hi
    · rw [hidesAt_iff]
      exact not_endsOver_of_takesAt hi
  · rintro ⟨i, hwrites, hhides⟩
    rw [WritesAt, ← text_segmentation] at hwrites
    rw [hidesAt_iff] at hhides
    exact ⟨i, (takesAt_or_endsOver t.firstTaken_segmentation hwrites).resolve_right hhides⟩

theorem contains_iff_writesAt : t.contains p = true ↔ ∃ i, t.WritesAt p i := by
  rw [contains, occursIn_iff, List.infix_iff_prefix_suffix]
  constructor
  · rintro ⟨cs, hp, hs⟩
    exact ⟨_, by rwa [WritesAt, ← List.suffix_iff_eq_drop.mp hs]⟩
  · rintro ⟨i, hi⟩
    exact ⟨_, hi, List.drop_suffix i _⟩

theorem contains_iff_dependsOn_or : t.contains p = true ↔
    t.DependsOn p ∨ ∃ i, t.WritesAt p i ∧ t.HidesAt i := by
  rw [contains_iff_writesAt, dependsOn_iff_writesAt]
  constructor
  · rintro ⟨i, hi⟩
    by_cases hhides : t.HidesAt i
    · exact .inr ⟨i, hi, hhides⟩
    · exact .inl ⟨i, hi, hhides⟩
  · rintro (⟨i, hi, -⟩ | ⟨i, hi, -⟩)
    · exact ⟨i, hi⟩
    · exact ⟨i, hi⟩

end Template

theorem checkRequired_eq_ok_iff {required : List Placeholder} {t : Template} {f : Fragments} :
    checkRequired required t f = .ok () ↔
      ∀ p ∈ required, t.contains p = true → f.isBlankAt p = false := by
  unfold checkRequired
  split
  · rename_i p hp
    obtain ⟨h, -⟩ := List.find?_eq_some_iff_append.mp hp
    simp only [Bool.and_eq_true, List.contains_iff_mem] at h
    simp only [reduceCtorEq, false_iff]
    intro hall
    have hblank := hall p h.1.1 h.1.2
    rw [h.2] at hblank
    exact absurd hblank (by decide)
  · rename_i hnone
    simp only [true_iff]
    intro p hp hcontains
    have h := List.find?_eq_none.mp hnone p (Placeholder.mem_all p)
    simpa [hp, hcontains] using h

namespace Template

/-- A document contains a placeholder exactly if the text of the email depends on it or its token is
written somewhere starting with the last letters of a token that rendering takes; and the text
depends on it exactly if its token is written somewhere else. A value is demanded for the required
placeholders that are contained. -/
theorem contains_iff_dependsOn_or_hidden (t : Template) (p : Placeholder) :
    (t.contains p = true ↔ p ∈ t.placeholders) ∧
      (t.contains p = true ↔ t.DependsOn p ∨ ∃ i, t.WritesAt p i ∧ t.HidesAt i) ∧
      (t.DependsOn p ↔ ∃ i, t.WritesAt p i ∧ ¬ t.HidesAt i) ∧
      ∀ required f, checkRequired required t f = .ok () ↔
        ∀ q ∈ required, (t.DependsOn q ∨ ∃ i, t.WritesAt q i ∧ t.HidesAt i) →
          f.isBlankAt q = false := by
  refine ⟨?_, contains_iff_dependsOn_or, dependsOn_iff_writesAt, ?_⟩
  · simp [placeholders]
  · intro required f
    simp only [checkRequired_eq_ok_iff, contains_iff_dependsOn_or]

/-- The token of the body starts with the last letters of the header's token. The header is taken,
so no value of the body shows, and yet one is demanded. -/
theorem contains_without_dependence :
    let t : Template := ⟨"t", "%%EMAIL_HEADER%%EMAIL_BODY%%"⟩
    t.contains .body = true ∧ ¬ t.DependsOn .body ∧
      checkRequired [.body] t { header := some "H" } = .error (.valueRequired .body) := by
  intro t
  have hparts : t.segmentation.parts.map Prod.snd = [.header] := by decide
  have hfirst : (Placeholder.all.find? fun p => [Placeholder.body].contains p && t.contains p &&
      ({ header := some "H" } : Fragments).isBlankAt p) = some .body := by decide
  refine ⟨by decide, ?_, ?_⟩
  · rw [dependsOn_iff_mem, hparts]
    decide
  · rw [checkRequired, hfirst]

end Template

end MailMerge
