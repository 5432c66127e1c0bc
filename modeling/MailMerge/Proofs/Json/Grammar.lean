import MailMerge.Json.Document

/-! # The grammar of JSON

Which texts are JSON, told without a reader: how a text, a number and a value are written, with
white space wherever it may stand. The reader takes each of them for what it is written for, and
leaves what follows it.
-/

namespace MailMerge.Json

section Gaps

variable {c : Char} {g cs : List Char}

def IsGap (g : List Char) : Prop := ∀ c ∈ g, isGap c = true

theorem isGap_nil : IsGap [] := nofun

theorem skipGap_append (hg : IsGap g) (cs : List Char) : skipGap (g ++ cs) = skipGap cs :=
  List.dropWhile_append_of_pos hg

theorem skipGap_of_head (h : isGap c = false) (cs : List Char) :
    skipGap (c :: cs) = c :: cs := by simp [skipGap, h]

theorem skipGap_skipGap (cs : List Char) : skipGap (skipGap cs) = skipGap cs := by
  induction cs with
  | nil => rfl
  | cons c cs ih =>
    by_cases hc : isGap c = true
    · have hskip : skipGap (c :: cs) = skipGap cs := List.dropWhile_cons_of_pos hc
      rw [hskip, ih]
    · rw [skipGap_of_head (Bool.eq_false_iff.mpr hc), skipGap_of_head (Bool.eq_false_iff.mpr hc)]

theorem isGap_iff : isGap c = true ↔ c = ' ' ∨ c = '\n' ∨ c = '\t' ∨ c = '\r' := by
  simp only [isGap, Bool.or_eq_true, beq_iff_eq, or_assoc]

end Gaps

section Texts

variable {c : Char} {rest w : List Char} {us : List Nat} {s : Option String}

/-- A text in quotes is written unit by unit: as it is, by an escape of one letter, or by a code. -/
inductive SpellsUnits : List Nat → List Char → Prop
  | nil : SpellsUnits [] []
  | plain {c : Char} {us : List Nat} {w : List Char} (hquote : c ≠ '"') (hslash : c ≠ '\\')
    (hcontrol : 0x20 ≤ c.toNat) (h : SpellsUnits us w) : SpellsUnits (c.toNat :: us) (c :: w)
  | escape {c e : Char} {us : List Nat} {w : List Char} (he : escaped? c = some e)
    (h : SpellsUnits us w) : SpellsUnits (e.toNat :: us) ('\\' :: c :: w)
  | code {a b c d : Char} {unit : Nat} {us : List Nat} {w : List Char}
    (hunit : Hexadecimal.read? [a, b, c, d] = some unit) (h : SpellsUnits us w) :
    SpellsUnits (unit :: us) ('\\' :: 'u' :: a :: b :: c :: d :: w)

/-- A text with its quotes. Its units may name no characters. -/
inductive SpellsText : Option String → List Char → Prop
  | mk {us : List Nat} {w : List Char} (h : SpellsUnits us w) :
    SpellsText ((joinUnits us).map String.ofList) ('"' :: (w ++ ['"']))

theorem readUnits_escape {d e : Char} (he : escaped? d = some e) :
    readUnits ('\\' :: d :: rest) = (readUnits rest).map fun r => (e.toNat :: r.1, r.2) := by
  rw [readUnits.eq_4, he, Option.map_eq_bind]
  · rfl
  · rintro _ _ _ _ _ rfl
    have hnone : escaped? 'u' = none := rfl
    rw [hnone] at he
    cases he

theorem readUnits_unicode {a b c d : Char} {unit : Nat}
    (hunit : Hexadecimal.read? [a, b, c, d] = some unit) :
    readUnits ('\\' :: 'u' :: a :: b :: c :: d :: rest) =
      (readUnits rest).map fun r => (unit :: r.1, r.2) := by
  rw [readUnits, hunit, Option.map_eq_bind]
  rfl

theorem readUnits_plain (hquote : c ≠ '"') (hslash : c ≠ '\\') (hc : 0x20 ≤ c.toNat) :
    readUnits (c :: rest) = (readUnits rest).map fun r => (c.toNat :: r.1, r.2) := by
  rw [readUnits, if_neg, Option.map_eq_bind]
  · rfl
  · rintro (h | h)
    · exact absurd hc (Nat.not_le.mpr h)
    · exact hslash h
  · exact hquote
  · intro _ _ _ _ _ h
    exact absurd h hslash
  · intro _ _ h
    exact absurd h hslash

theorem readUnits_of_spells (h : SpellsUnits us w) (rest : List Char) :
    readUnits (w ++ '"' :: rest) = some (us, rest) := by
  induction h with
  | nil => rfl
  | plain hquote hslash hcontrol _ ih =>
    rw [List.cons_append, readUnits_plain hquote hslash hcontrol, ih]
    rfl
  | escape he _ ih =>
    rw [List.cons_append, List.cons_append, readUnits_escape he, ih]
    rfl
  | code hunit _ ih =>
    simp only [List.cons_append]
    rw [readUnits_unicode hunit, ih]
    rfl

theorem readText_of_spells (h : SpellsText s w) :
    ∃ inner, w = '"' :: inner ∧ ∀ rest, readText (inner ++ rest) = some (s, rest) := by
  cases h with
  | @mk us inner h =>
    refine ⟨_, rfl, fun rest => ?_⟩
    rw [List.append_assoc, List.singleton_append, readText, readUnits_of_spells h]
    rfl

end Texts

section Numbers

variable {w rest : List Char} {ds : List Nat} {n : Number}

structure SpellsDigits (ds : List Nat) (w : List Char) : Prop where
  digits : ∀ c ∈ w, c.isDigit = true
  values : ds = w.map fun c => c.toNat - 48
  ne_nil : w ≠ []

inductive SpellsFraction : List Nat → List Char → Prop
  | none : SpellsFraction [] []
  | some {ds : List Nat} {w : List Char} (h : SpellsDigits ds w) : SpellsFraction ds ('.' :: w)

inductive SpellsSign : Bool → List Char → Prop
  | none : SpellsSign false []
  | plus : SpellsSign false ['+']
  | minus : SpellsSign true ['-']

inductive SpellsExponent : Option (Bool × List Nat) → List Char → Prop
  | none : SpellsExponent none []
  | some {c : Char} {negative : Bool} {sign w : List Char} {ds : List Nat} (hc : c = 'e' ∨ c = 'E')
    (hsign : SpellsSign negative sign) (h : SpellsDigits ds w) :
    SpellsExponent (some (negative, ds)) (c :: (sign ++ w))

/-- A number; a zero in front stands alone. -/
inductive SpellsNumber : Number → List Char → Prop
  | mk {negative : Bool} {whole fraction : List Nat} {exponent : Option (Bool × List Nat)}
    {w w' w'' : List Char} (hwhole : SpellsDigits whole w)
    (hzero : whole.head? = some 0 → whole.length = 1) (hfraction : SpellsFraction fraction w')
    (hexponent : SpellsExponent exponent w'') :
    SpellsNumber ⟨negative, whole, fraction, exponent⟩
      ((if negative then ['-'] else []) ++ (w ++ (w' ++ w'')))

/-- What may follow a value: white space, a comma, a closing bracket, or the end of the text. -/
def Ends (rest : List Char) : Prop :=
  ∀ c ∈ rest.head?, isGap c = true ∨ c = ',' ∨ c = ']' ∨ c = '\x7D'

def Digitless (rest : List Char) : Prop := ∀ c ∈ rest.head?, c.isDigit = false

theorem readDigits_of_spells (h : SpellsDigits ds w) (hrest : Digitless rest) :
    readDigits (w ++ rest) = (ds, rest) := by
  have htake : rest.takeWhile Char.isDigit = [] ∧ rest.dropWhile Char.isDigit = rest := by
    cases rest with
    | nil => exact ⟨rfl, rfl⟩
    | cons c rest => simp [hrest c rfl]
  rw [readDigits, List.takeWhile_append_of_pos h.digits, List.dropWhile_append_of_pos h.digits,
    htake.1, htake.2, List.append_nil, h.values]

theorem SpellsDigits.isEmpty (h : SpellsDigits ds w) : ds.isEmpty = false := by
  rw [h.values, List.isEmpty_map]
  cases w with
  | nil => exact absurd rfl h.ne_nil
  | cons c w => rfl

theorem Ends.head (h : Ends rest) :
    ∀ c ∈ rest.head?, c.isDigit = false ∧ c ≠ '.' ∧ ¬ (c = 'e' ∨ c = 'E') := by
  intro c hc
  have hends := h c hc
  rw [isGap_iff] at hends
  rcases hends with (rfl | rfl | rfl | rfl) | rfl | rfl | rfl <;> decide

theorem SpellsDigits.head {c : Char} {cs : List Char} (h : SpellsDigits ds w)
    (heq : w ++ rest = c :: cs) : c.isDigit = true := by
  cases w with
  | nil => exact absurd rfl h.ne_nil
  | cons d w =>
    obtain ⟨rfl, -⟩ := List.cons.inj heq
    exact h.digits d List.mem_cons_self

theorem Ends.digitless (h : Ends rest) : Digitless rest := fun c hc => (h.head c hc).1

theorem readExponent_of_spells {exponent : Option (Bool × List Nat)}
    (h : SpellsExponent exponent w) (hrest : Ends rest) :
    readExponent (w ++ rest) = some (exponent, rest) := by
  cases h with
  | none =>
    cases rest with
    | nil => rfl
    | cons c rest =>
      unfold readExponent
      exact if_neg (hrest.head c rfl).2.2
  | @some c negative sign w ds hc hsign h =>
    have hdigits := readDigits_of_spells h hrest.digitless
    rw [List.cons_append, List.append_assoc]
    cases hsign with
    | plus | minus =>
      simp only [List.cons_append, List.nil_append, readExponent, if_pos hc, hdigits, h.isEmpty]
      rfl
    | none =>
      rw [List.nil_append, readExponent, if_pos hc]
      · simp only [hdigits, h.isEmpty]
        rfl
      · intro r heq
        exact absurd (h.head heq) (by decide)
      · intro r heq
        exact absurd (h.head heq) (by decide)

theorem head_of_exponent {exponent : Option (Bool × List Nat)} (h : SpellsExponent exponent w)
    (hrest : Ends rest) : ∀ c ∈ (w ++ rest).head?, c.isDigit = false ∧ c ≠ '.' := by
  cases h with
  | none => exact fun c hc => ⟨(hrest.head c hc).1, (hrest.head c hc).2.1⟩
  | some hc =>
    rintro _ ⟨⟩
    rcases hc with rfl | rfl <;> decide

theorem readUnsigned_of_spells (negative : Bool) {whole fraction : List Nat}
    {exponent : Option (Bool × List Nat)} {w' w'' : List Char} (hwhole : SpellsDigits whole w)
    (hzero : whole.head? = some 0 → whole.length = 1) (hfraction : SpellsFraction fraction w')
    (hexponent : SpellsExponent exponent w'') (hrest : Ends rest) :
    readUnsigned negative (w ++ (w' ++ (w'' ++ rest))) =
      some (⟨negative, whole, fraction, exponent⟩, rest) := by
  have hhead := head_of_exponent hexponent hrest
  have hplain : ¬ (whole.isEmpty = true ∨ (whole.head? = some 0 ∧ whole.length ≠ 1)) := by
    rintro (hnil | ⟨hhead, hlong⟩)
    · rw [hwhole.isEmpty] at hnil
      cases hnil
    · exact hlong (hzero hhead)
  have hread := readExponent_of_spells hexponent hrest
  cases hfraction with
  | none =>
    have hdigits : readDigits (w ++ (w'' ++ rest)) = (whole, w'' ++ rest) :=
      readDigits_of_spells hwhole fun c hc => (hhead c hc).1
    rw [List.nil_append, readUnsigned, hdigits]
    simp only [if_neg hplain]
    split
    · rename_i hpoint
      exact absurd rfl (hhead '.' (by rw [hpoint]; rfl)).2
    · rw [hread]
      rfl
  | @some _ w' h =>
    have hdigits : readDigits (w ++ ('.' :: w' ++ (w'' ++ rest))) =
        (whole, '.' :: w' ++ (w'' ++ rest)) :=
      readDigits_of_spells hwhole fun c hc => Option.some.inj hc ▸ rfl
    have hfraction : readDigits (w' ++ (w'' ++ rest)) = (fraction, w'' ++ rest) :=
      readDigits_of_spells h fun c hc => (hhead c hc).1
    rw [readUnsigned, hdigits]
    simp only [if_neg hplain, List.cons_append, hfraction, h.isEmpty, hread]
    rfl

theorem readNumber_of_spells (h : SpellsNumber n w) (hrest : Ends rest) :
    readNumber (w ++ rest) = some (n, rest) := by
  cases h with
  | @mk negative whole fraction exponent w w' w'' hwhole hzero hfraction hexponent =>
    have hread := readUnsigned_of_spells negative hwhole hzero hfraction hexponent hrest
    simp only [List.append_assoc]
    cases negative with
    | true => exact hread
    | false =>
      rw [if_neg (by decide), List.nil_append]
      unfold readNumber
      split
      · rename_i heq
        exact absurd (hwhole.head heq) (by decide)
      · exact hread

theorem exists_cons_of_number (h : SpellsNumber n w) :
    ∃ c cs, w = c :: cs ∧ (c = '-' ∨ c.isDigit = true) := by
  cases h with
  | @mk negative whole fraction exponent w w' w'' hwhole =>
    cases negative with
    | true => exact ⟨_, _, rfl, .inl rfl⟩
    | false =>
      obtain ⟨c, cs, rfl⟩ := List.exists_cons_of_ne_nil hwhole.ne_nil
      exact ⟨c, _, rfl, .inr (hwhole.digits c List.mem_cons_self)⟩

end Numbers

section Values

mutual

/-- A value, without white space around it. -/
inductive Spells : Doc → List Char → Prop
  | null : Spells .null ['n', 'u', 'l', 'l']
  | yes : Spells (.bool true) ['t', 'r', 'u', 'e']
  | no : Spells (.bool false) ['f', 'a', 'l', 's', 'e']
  | number {n : Number} {w : List Char} (h : SpellsNumber n w) : Spells (.number n) w
  | text {s : Option String} {w : List Char} (h : SpellsText s w) : Spells (.text s) w
  | emptyArray {g : List Char} (hg : IsGap g) : Spells (.array .closed) ('[' :: (g ++ [']']))
  | array {items : Items} {w : List Char} (h : SpellsItems items w) :
    Spells (.array items) ('[' :: (w ++ [']']))
  | emptyObject {g : List Char} (hg : IsGap g) :
    Spells (.object .closed) ('\x7B' :: (g ++ ['\x7D']))
  | object {members : Members} {w : List Char} (h : SpellsMembers members w) :
    Spells (.object members) ('\x7B' :: (w ++ ['\x7D']))

inductive SpellsItem : Doc → List Char → Prop
  | mk {d : Doc} {g w g' : List Char} (hg : IsGap g) (h : Spells d w) (hg' : IsGap g') :
    SpellsItem d (g ++ (w ++ g'))

/-- The items of an array, at least one, without the brackets. -/
inductive SpellsItems : Items → List Char → Prop
  | last {d : Doc} {w : List Char} (h : SpellsItem d w) : SpellsItems (.cons d .closed) w
  | cons {d : Doc} {w w' : List Char} {tail : Items} (h : SpellsItem d w)
    (htail : SpellsItems tail w') : SpellsItems (.cons d tail) (w ++ ',' :: w')

inductive SpellsMember : Option String → Doc → List Char → Prop
  | mk {name : Option String} {d : Doc} {g t g' w : List Char} (hg : IsGap g)
    (hname : SpellsText name t) (hg' : IsGap g') (h : SpellsItem d w) :
    SpellsMember name d (g ++ (t ++ (g' ++ ':' :: w)))

inductive SpellsMembers : Members → List Char → Prop
  | last {name : Option String} {d : Doc} {w : List Char} (h : SpellsMember name d w) :
    SpellsMembers (.cons name d .closed) w
  | cons {name : Option String} {d : Doc} {w w' : List Char} {tail : Members}
    (h : SpellsMember name d w) (htail : SpellsMembers tail w') :
    SpellsMembers (.cons name d tail) (w ++ ',' :: w')

end

variable {d : Doc} {items : Items} {members : Members} {name : Option String} {g w rest : List Char}
  {fuel : Nat}

theorem isGap_eq_false {c : Char} (hc : c = '-' ∨ c.isDigit = true) : isGap c = false := by
  rw [← Bool.not_eq_true, isGap_iff]
  rintro (rfl | rfl | rfl | rfl) <;> simp at hc

theorem exists_cons_of_spells (h : Spells d w) :
    ∃ c cs, w = c :: cs ∧ isGap c = false ∧ c ≠ ']' := by
  cases h with
  | number h =>
    obtain ⟨c, cs, rfl, hc⟩ := exists_cons_of_number h
    refine ⟨c, cs, rfl, isGap_eq_false hc, ?_⟩
    rintro rfl
    simp at hc
  | text h =>
    cases h
    exact ⟨_, _, rfl, by decide, by decide⟩
  | _ => exact ⟨_, _, rfl, by decide, by decide⟩

theorem skipGap_of_item (h : SpellsItem d w) (rest : List Char) :
    ∃ c cs, skipGap (w ++ rest) = c :: cs ∧ c ≠ ']' := by
  cases h with
  | mk hg h hg' =>
    obtain ⟨c, cs, rfl, hgap, hclose⟩ := exists_cons_of_spells h
    rw [List.append_assoc, skipGap_append hg, List.cons_append, List.cons_append,
      skipGap_of_head hgap]
    exact ⟨c, _, rfl, hclose⟩

theorem skipGap_of_items (h : SpellsItems items w) (rest : List Char) :
    ∃ c cs, skipGap (w ++ rest) = c :: cs ∧ c ≠ ']' := by
  cases h with
  | last h => exact skipGap_of_item h rest
  | cons h =>
    rw [List.append_assoc]
    exact skipGap_of_item h _

theorem skipGap_of_member (h : SpellsMember name d w) :
    ∃ t g w', SpellsText name t ∧ IsGap g ∧ SpellsItem d w' ∧ w'.length < w.length ∧
      ∀ rest, skipGap (w ++ rest) = t ++ (g ++ ':' :: (w' ++ rest)) := by
  cases h with
  | @mk _ _ g t g' w' hg hname hg' h =>
    refine ⟨t, g', w', hname, hg', h, ?_, fun rest => ?_⟩
    · simp only [List.length_append, List.length_cons]
      omega
    · obtain ⟨inner, rfl, -⟩ := readText_of_spells hname
      simp only [List.append_assoc, List.cons_append]
      rw [skipGap_append hg, skipGap_of_head (by decide)]

theorem skipGap_of_members (h : SpellsMembers members w) (rest : List Char) :
    ∃ cs, skipGap (w ++ rest) = '"' :: cs := by
  have hfirst : ∀ {name d w}, SpellsMember name d w → ∀ rest,
      ∃ cs, skipGap (w ++ rest) = '"' :: cs := by
    intro name d w h rest
    obtain ⟨t, g, w', hname, -, -, -, hskip⟩ := skipGap_of_member h
    obtain ⟨inner, rfl, -⟩ := readText_of_spells hname
    exact ⟨_, hskip rest⟩
  cases h with
  | last h => exact hfirst h rest
  | cons h =>
    rw [List.append_assoc]
    exact hfirst h _

end Values

section Reading

variable {d : Doc} {items : Items} {members : Members} {name : Option String}
  {g w cs rest : List Char} {fuel : Nat} {first : Bool} {c : Char}

theorem readValue_skipGap (fuel : Nat) (cs : List Char) :
    readValue fuel (skipGap cs) = readValue fuel cs := by
  cases fuel with
  | zero => rw [readValue, readValue]
  | succ fuel => rw [readValue, readValue, skipGap_skipGap]

theorem readItem_skipGap (fuel : Nat) (cs : List Char) :
    readItem fuel (skipGap cs) = readItem fuel cs := by
  cases fuel with
  | zero => rw [readItem, readItem]
  | succ fuel => rw [readItem, readItem, readValue_skipGap]

theorem readItems_close (hg : IsGap g) :
    readItems (fuel + 1) first (g ++ ']' :: rest) = (.closed, rest) := by
  rw [readItems, skipGap_append hg, skipGap_of_head (by decide)]
  rfl

theorem readItems_first (hcs : ∃ c cs', skipGap cs = c :: cs' ∧ c ≠ ']') :
    readItems (fuel + 1) true cs = readItem fuel cs := by
  obtain ⟨c, cs', hskip, hclose⟩ := hcs
  rw [← readItem_skipGap, readItems, hskip]
  split
  · rename_i heq
    exact absurd (List.cons.inj heq).1 hclose
  · rename_i heq
    cases heq
    rfl
  · rename_i heq
    cases heq

/-- With the comma in front of it an item that is not the first one is read as the first one. -/
theorem readItems_comma (hg : IsGap g) (hcs : ∃ c cs', skipGap cs = c :: cs' ∧ c ≠ ']') :
    readItems (fuel + 1) false (g ++ ',' :: cs) = readItem fuel cs := by
  obtain ⟨c, cs', hskip, hclose⟩ := hcs
  rw [← readItem_skipGap, readItems, skipGap_append hg, skipGap_of_head (by decide), hskip]
  split
  · rename_i heq
    exact absurd (List.cons.inj heq).1 (by decide)
  · rename_i heq
    obtain ⟨rfl, rfl⟩ := List.cons.inj heq
    simp only [Bool.false_eq_true, if_false, if_true, hskip]
    split
    · rename_i heq
      cases heq
    · rename_i heq
      exact absurd (List.cons.inj heq).1 hclose
    · rfl
  · rename_i heq
    cases heq

theorem readMembers_close (hg : IsGap g) :
    readMembers (fuel + 1) first (g ++ '\x7D' :: rest) = (.closed, rest) := by
  rw [readMembers, skipGap_append hg, skipGap_of_head (by decide)]
  rfl

theorem readMembers_first (hcs : ∃ cs', skipGap cs = '"' :: cs') :
    readMembers (fuel + 1) true cs = readMember fuel (skipGap cs) := by
  obtain ⟨cs', hskip⟩ := hcs
  rw [readMembers, hskip]
  rfl

theorem readMembers_comma (hg : IsGap g) (cs : List Char) :
    readMembers (fuel + 1) false (g ++ ',' :: cs) = readMember fuel (skipGap cs) := by
  rw [readMembers, skipGap_append hg, skipGap_of_head (by decide)]
  rfl

theorem readMember_of_name {t : List Char} (ht : SpellsText name t) (hg : IsGap g) :
    readMember (fuel + 1) (t ++ (g ++ ':' :: cs)) =
      (.cons name (readValue fuel cs).1 (readMembers fuel false (readValue fuel cs).2).1,
        (readMembers fuel false (readValue fuel cs).2).2) := by
  obtain ⟨inner, rfl, hread⟩ := readText_of_spells ht
  rw [List.cons_append, readMember]
  simp only [hread, skipGap_append hg, skipGap_of_head (c := ':') rfl]

theorem ends_append (hg : IsGap g) (hc : c = ',' ∨ c = ']' ∨ c = '\x7D') (rest : List Char) :
    Ends (g ++ c :: rest) := by
  cases g with
  | nil =>
    rintro _ ⟨⟩
    exact .inr hc
  | cons b g =>
    rintro _ ⟨⟩
    exact .inl (hg b List.mem_cons_self)

theorem readValue_of_number {n : Number} (h : SpellsNumber n w) (hrest : Ends rest) :
    readValue (fuel + 1) (w ++ rest) = (.number n, rest) := by
  have hread := readNumber_of_spells h hrest
  obtain ⟨c, cs, rfl, hc⟩ := exists_cons_of_number h
  rw [readValue, List.cons_append, skipGap_of_head (isGap_eq_false hc)]
  rw [List.cons_append] at hread
  split
  case h_7 c' rest' _ _ _ _ _ _ heq =>
    obtain ⟨rfl, rfl⟩ := List.cons.inj heq
    rw [if_pos hc, hread]
    rfl
  case h_8 heq => cases heq
  all_goals
    rename_i heq
    obtain ⟨rfl, -⟩ := List.cons.inj heq
    simp at hc

theorem length_pos_of_item (h : SpellsItem d w) : 0 < w.length := by
  cases h with
  | mk _ h =>
    obtain ⟨c, cs, rfl, -⟩ := exists_cons_of_spells h
    simp only [List.length_append, List.length_cons]
    omega

theorem readValue_of_item (hread : ∀ {w g rest : List Char}, Spells d w → IsGap g → Ends rest →
      3 * w.length ≤ fuel + 2 → readValue fuel (g ++ (w ++ rest)) = (d, rest))
    (h : SpellsItem d w) (hfuel : 3 * w.length ≤ fuel + 2)
    (hc : c = ',' ∨ c = ']' ∨ c = '\x7D') (rest : List Char) :
    ∃ g, IsGap g ∧ readValue fuel (w ++ c :: rest) = (d, g ++ c :: rest) := by
  cases h with
  | @mk _ g w g' hg h hg' =>
    refine ⟨g', hg', ?_⟩
    simp only [List.length_append] at hfuel
    have hvalue := hread h hg (ends_append hg' hc rest) (by omega)
    simpa only [List.append_assoc] using hvalue

mutual

/-- A value is read for what it is written for, whatever ends it. -/
theorem readValue_of_spells (d : Doc) {w : List Char} (h : Spells d w) {g : List Char}
    (hg : IsGap g) {rest : List Char} (hrest : Ends rest) (fuel : Nat)
    (hfuel : 3 * w.length ≤ fuel + 2) : readValue fuel (g ++ (w ++ rest)) = (d, rest) := by
  obtain ⟨c, cs, hw, hgap, -⟩ := exists_cons_of_spells h
  obtain ⟨fuel, rfl⟩ : ∃ k, fuel = k + 1 := by
    rw [hw, List.length_cons] at hfuel
    exact ⟨fuel - 1, by omega⟩
  have hskip : skipGap (w ++ rest) = w ++ rest := by
    rw [hw, List.cons_append, skipGap_of_head hgap]
  rw [← readValue_skipGap, skipGap_append hg, hskip]
  cases h with
  | number h => exact readValue_of_number h hrest
  | null | yes | no => rfl
  | text h =>
    obtain ⟨inner, rfl, hread⟩ := readText_of_spells h
    rw [readValue, hskip, List.cons_append]
    simp only [hread]
    rfl
  | emptyArray hg' =>
    simp only [List.length_cons, List.length_append] at hfuel
    obtain ⟨fuel, rfl⟩ : ∃ k, fuel = k + 1 := ⟨fuel - 1, by omega⟩
    rw [readValue, hskip, List.cons_append, List.append_assoc, List.singleton_append]
    simp only [readItems_close hg']
  | @array items w h =>
    simp only [List.length_cons, List.length_append] at hfuel
    obtain ⟨fuel, rfl⟩ : ∃ k, fuel = k + 1 := ⟨fuel - 1, by omega⟩
    rw [readValue, hskip, List.cons_append, List.append_assoc, List.singleton_append]
    simp only [readItems_first (skipGap_of_items h _),
      readItem_of_spells items h rest fuel (by omega)]
  | emptyObject hg' =>
    simp only [List.length_cons, List.length_append] at hfuel
    obtain ⟨fuel, rfl⟩ : ∃ k, fuel = k + 1 := ⟨fuel - 1, by omega⟩
    rw [readValue, hskip, List.cons_append, List.append_assoc, List.singleton_append]
    simp only [readMembers_close hg']
  | @object members w h =>
    simp only [List.length_cons, List.length_append] at hfuel
    obtain ⟨fuel, rfl⟩ : ∃ k, fuel = k + 1 := ⟨fuel - 1, by omega⟩
    rw [readValue, hskip, List.cons_append, List.append_assoc, List.singleton_append]
    simp only [readMembers_first (skipGap_of_members h _),
      readMember_of_spells members h rest fuel (by omega)]

theorem readItem_of_spells (items : Items) {w : List Char} (h : SpellsItems items w)
    (rest : List Char) (fuel : Nat) (hfuel : 3 * w.length ≤ fuel + 1) :
    readItem fuel (w ++ ']' :: rest) = (items, rest) := by
  cases h with
  | @last d w h =>
    have hpos := length_pos_of_item h
    obtain ⟨fuel, rfl⟩ : ∃ k, fuel = k + 2 := ⟨fuel - 2, by omega⟩
    obtain ⟨g, hg, hread⟩ := readValue_of_item
      (fun h hg hrest hfuel => readValue_of_spells d h hg hrest (fuel + 1) hfuel) h (by omega)
      (.inr (.inl rfl)) rest
    rw [readItem, hread]
    simp only [readItems_close hg]
  | @cons d w w' tail h htail =>
    have hpos := length_pos_of_item h
    simp only [List.length_append, List.length_cons] at hfuel
    obtain ⟨fuel, rfl⟩ : ∃ k, fuel = k + 2 := ⟨fuel - 2, by omega⟩
    obtain ⟨g, hg, hread⟩ := readValue_of_item
      (fun h hg hrest hfuel => readValue_of_spells d h hg hrest (fuel + 1) hfuel) h (by omega)
      (.inl rfl) (w' ++ ']' :: rest)
    rw [List.append_assoc, List.cons_append, readItem, hread]
    simp only [readItems_comma hg (skipGap_of_items htail _),
      readItem_of_spells tail htail rest fuel (by omega)]

theorem readMember_of_spells (members : Members) {w : List Char} (h : SpellsMembers members w)
    (rest : List Char) (fuel : Nat) (hfuel : 3 * w.length ≤ fuel + 1) :
    readMember fuel (skipGap (w ++ '\x7D' :: rest)) = (members, rest) := by
  cases h with
  | @last name d w h =>
    obtain ⟨t, g, w', hname, hg, hitem, hlt, hskip⟩ := skipGap_of_member h
    have hpos := length_pos_of_item hitem
    obtain ⟨fuel, rfl⟩ : ∃ k, fuel = k + 2 := ⟨fuel - 2, by omega⟩
    obtain ⟨g', hg', hread⟩ := readValue_of_item
      (fun h hg hrest hfuel => readValue_of_spells d h hg hrest (fuel + 1) hfuel) hitem (by omega)
      (.inr (.inr rfl)) rest
    rw [hskip, readMember_of_name hname hg, hread]
    simp only [readMembers_close hg']
  | @cons name d w₁ w₂ tail h htail =>
    obtain ⟨t, g, w', hname, hg, hitem, hlt, hskip⟩ := skipGap_of_member h
    have hpos := length_pos_of_item hitem
    simp only [List.length_append, List.length_cons] at hfuel
    obtain ⟨fuel, rfl⟩ : ∃ k, fuel = k + 2 := ⟨fuel - 2, by omega⟩
    obtain ⟨g', hg', hread⟩ := readValue_of_item
      (fun h hg hrest hfuel => readValue_of_spells d h hg hrest (fuel + 1) hfuel) hitem (by omega)
      (.inl rfl) (w₂ ++ '\x7D' :: rest)
    rw [List.append_assoc, List.cons_append, hskip, readMember_of_name hname hg, hread]
    simp only [readMembers_comma hg', readMember_of_spells tail htail rest fuel (by omega)]

end

/-- A text that is JSON is read as a whole. -/
theorem ofString_of_spells {s : String} {g' : List Char} (hg : IsGap g) (h : Spells d w)
    (hg' : IsGap g') (hs : s.toList = g ++ (w ++ g')) : Document.ofString s = ⟨d, true⟩ := by
  have hends : Ends g' := fun c hc => .inl (hg' c (List.mem_of_mem_head? hc))
  have hskip : skipGap g' = [] := by
    have happend := skipGap_append hg' []
    rwa [List.append_nil] at happend
  have hfuel : 3 * w.length ≤ 3 * (g ++ (w ++ g')).length + 3 + 2 := by
    simp only [List.length_append]
    omega
  have hread := readValue_of_spells d h hg hends _ hfuel
  unfold Document.ofString
  simp only [hs, hread, hskip]
  rfl

end Reading

end MailMerge.Json
