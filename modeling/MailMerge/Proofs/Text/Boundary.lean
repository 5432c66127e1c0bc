import MailMerge.Proofs.Text.Ascii
import MailMerge.Text.Cutting
import MailMerge.Text.Search

/-! # Characters in UTF-8

The first byte of a character continues none, and every other byte of it does. So the places at
which a text may be cut are those between two of its characters, and what is looked for by bytes
is found where it stands as characters: a search finds it behind the same characters, and a run
of bytes of one kind is a run of characters.
-/

namespace MailMerge.Utf8

variable {cs w front back : List Char} {i : Nat}

theorem ofChars_toList (s : String) : ofChars s.toList = encode s := (encode_eq_flatMap s).symm

theorem encode_ofList (cs : List Char) : encode (String.ofList cs) = ofChars cs := by
  rw [← ofChars_toList, String.toList_ofList]

theorem exists_decode?_ofChars (cs : List Char) : ∃ t, decode? (ofChars cs) = some t :=
  ⟨String.ofList cs, decode?_eq_some_iff.mpr (encode_ofList cs).symm⟩

theorem isTail_ofNat_eq_false {n : Nat} (h : n < 0x80 ∨ (0xC0 ≤ n ∧ n < 0x100)) :
    isTail (UInt8.ofNat n) = false := by
  simp only [isTail, ← Bool.not_eq_true, Bool.and_eq_true, decide_eq_true_eq,
    UInt8.le_iff_toNat_le, UInt8.toNat_ofNat', UInt8.reduceToNat]
  omega

theorem isTail_ofNat_add (n : Nat) : isTail (UInt8.ofNat (n % 0x40 + 0x80)) = true := by
  simp only [isTail, Bool.and_eq_true, decide_eq_true_eq, UInt8.le_iff_toNat_le,
    UInt8.toNat_ofNat', UInt8.reduceToNat]
  omega

theorem exists_utf8EncodeChar (c : Char) :
    ∃ b bs, String.utf8EncodeChar c = b :: bs ∧ isTail b = false ∧ ∀ x ∈ bs, isTail x = true := by
  have hc : c.val.toNat < 0x110000 := by
    rcases c.valid with h | ⟨-, h⟩
    · exact Nat.lt_trans h (by decide)
    · exact h
  rw [String.utf8EncodeChar]
  generalize c.val.toNat = v at hc
  split
  · exact ⟨_, _, rfl, isTail_ofNat_eq_false (by omega), List.forall_mem_nil _⟩
  split
  · exact ⟨_, _, rfl, isTail_ofNat_eq_false (by omega),
      List.forall_mem_singleton.mpr (isTail_ofNat_add _)⟩
  split
  · refine ⟨_, _, rfl, isTail_ofNat_eq_false (by omega), ?_⟩
    simp only [List.forall_mem_cons, isTail_ofNat_add, true_and]
    exact List.forall_mem_nil _
  · refine ⟨_, _, rfl, isTail_ofNat_eq_false (by omega), ?_⟩
    simp only [List.forall_mem_cons, isTail_ofNat_add, true_and]
    exact List.forall_mem_nil _

theorem le_toNat_of_mem {c : Char} {x : UInt8} (hx : x ∈ String.utf8EncodeChar c)
    (h : 128 ≤ x.toNat) : 128 ≤ c.toNat := by
  rcases Nat.lt_or_ge c.toNat 128 with hc | hc
  · have hsmall : (UInt8.ofNat c.toNat).toNat = c.toNat := by
      rw [UInt8.toNat_ofNat']
      omega
    rw [utf8EncodeChar_of_ascii hsmall.symm (by omega), List.mem_singleton] at hx
    rw [hx, hsmall] at h
    omega
  · exact hc

theorem length_ofChars_lt (h : front ≠ []) :
    (ofChars back).length < (ofChars (front ++ back)).length := by
  obtain ⟨c, cs, rfl⟩ := List.exists_cons_of_ne_nil h
  have hpos := c.utf8Size_pos
  rw [List.cons_append, ofChars_cons, ofChars_append, List.length_append, List.length_append,
    String.length_utf8EncodeChar]
  omega

theorem exists_ofChars_cons (h : cs ≠ []) : ∃ b bs, ofChars cs = b :: bs ∧ isTail b = false := by
  cases cs with
  | nil => exact absurd rfl h
  | cons c cs =>
    obtain ⟨b, bs, hbytes, hhead, -⟩ := exists_utf8EncodeChar c
    exact ⟨b, bs ++ ofChars cs, by rw [ofChars_cons, hbytes, List.cons_append], hhead⟩

theorem exists_of_not_tail {x : UInt8} (hx : isTail x = false) (h : (ofChars cs)[i]? = some x) :
    ∃ front back, cs = front ++ back ∧ (ofChars front).length = i := by
  induction cs generalizing i with
  | nil => simp at h
  | cons c cs ih =>
    obtain ⟨b, bs, hbytes, -, htails⟩ := exists_utf8EncodeChar c
    rw [ofChars_cons, hbytes] at h
    rcases Nat.lt_or_ge i (b :: bs).length with hi | hi
    · rw [List.getElem?_append_left hi] at h
      cases i with
      | zero => exact ⟨[], c :: cs, rfl, rfl⟩
      | succ i =>
        have htail := htails x (List.mem_of_getElem? h)
        rw [hx] at htail
        exact absurd htail nofun
    · rw [List.getElem?_append_right hi] at h
      obtain ⟨front, back, rfl, hlength⟩ := ih h
      refine ⟨c :: front, back, rfl, ?_⟩
      rw [ofChars_cons, hbytes, List.length_append, hlength]
      omega

/-- A text may be cut between two of its characters and nowhere else. -/
theorem isBoundary_ofChars_iff : isBoundary (ofChars cs) i = true ↔
    ∃ front back, cs = front ++ back ∧ (ofChars front).length = i := by
  simp only [isBoundary, Bool.or_eq_true, beq_iff_eq, Option.any_eq_true, Bool.not_eq_true']
  constructor
  · rintro ((rfl | rfl) | ⟨x, hget, hx⟩)
    · exact ⟨[], cs, rfl, rfl⟩
    · exact ⟨cs, [], (List.append_nil cs).symm, rfl⟩
    · exact exists_of_not_tail hx hget
  · rintro ⟨front, back, rfl, rfl⟩
    by_cases hback : back = []
    · exact .inl (.inr (by rw [hback, List.append_nil]))
    · obtain ⟨b, bs, hbytes, hhead⟩ := exists_ofChars_cons hback
      refine .inr ⟨b, ?_, hhead⟩
      rw [ofChars_append, hbytes, List.getElem?_append_right (Nat.le_refl _), Nat.sub_self]
      rfl

theorem isBoundary_encode_iff {s : String} :
    isBoundary (encode s) i = true ↔ String.Pos.Raw.IsValid s ⟨i⟩ := by
  rw [← ofChars_toList, isBoundary_ofChars_iff, String.Pos.Raw.isValid_iff_exists_append]
  constructor
  · rintro ⟨front, back, hcs, hlength⟩
    refine ⟨String.ofList front, String.ofList back, ?_, ?_⟩
    · rw [← String.ofList_append, ← hcs, String.ofList_toList]
    · rw [String.Pos.Raw.ext_iff, ← hlength, ← encode_ofList]
      rfl
  · rintro ⟨s₁, s₂, rfl, hpos⟩
    refine ⟨s₁.toList, s₂.toList, String.toList_append, ?_⟩
    rw [ofChars_toList, length_encode]
    exact (String.Pos.Raw.ext_iff.mp hpos).symm

theorem prefix_ofChars_iff : ofChars w <+: ofChars cs ↔ w <+: cs := by
  constructor
  · rintro ⟨rest, hrest⟩
    refine List.isPrefix_of_utf8Encode_append_eq_utf8Encode rest.toByteArray ?_
    have hbytes := congrArg List.toByteArray hrest
    rwa [List.toByteArray_append] at hbytes
  · rintro ⟨rest, rfl⟩
    rw [ofChars_append]
    exact List.prefix_append _ _

theorem isPrefixOf_ofChars (w cs : List Char) :
    (ofChars w).isPrefixOf (ofChars cs) = w.isPrefixOf cs := by
  rw [Bool.eq_iff_iff, List.isPrefixOf_iff_prefix, List.isPrefixOf_iff_prefix, prefix_ofChars_iff]

theorem position?_tails_append (hw : w ≠ []) {bs : Bytes} (h : ∀ x ∈ bs, isTail x = true)
    (b : Bytes) : position? (ofChars w) (bs ++ b) =
      (position? (ofChars w) b).map (· + bs.length) := by
  induction bs with
  | nil => simp
  | cons x bs ih =>
    obtain ⟨htail, hrest⟩ := List.forall_mem_cons.mp h
    have hnot : ¬ ofChars w <+: x :: (bs ++ b) := by
      obtain ⟨y, ys, hbytes, hhead⟩ := exists_ofChars_cons hw
      rw [hbytes, List.cons_prefix_cons]
      rintro ⟨rfl, -⟩
      rw [htail] at hhead
      exact absurd hhead nofun
    rw [List.cons_append, position?_cons hnot, ih hrest, Option.map_map]
    rfl

/-- The bytes of a text are found behind those of the characters that it is found behind. -/
theorem position?_ofChars (hw : w ≠ []) (cs : List Char) : position? (ofChars w) (ofChars cs) =
    (position? w cs).map fun i => (ofChars (cs.take i)).length := by
  induction cs with
  | nil =>
    have hnone : ¬ w <:+: [] := fun h => hw (List.infix_nil.mp h)
    have hnone' : ¬ ofChars w <:+: [] := by
      obtain ⟨b, bs, hbytes, -⟩ := exists_ofChars_cons hw
      simp [hbytes]
    rw [ofChars_nil, position?_eq_none_iff.mpr hnone, position?_eq_none_iff.mpr hnone']
    rfl
  | cons c cs ih =>
    by_cases hp : w <+: c :: cs
    · rw [position?_eq_some_zero hp, position?_eq_some_zero (prefix_ofChars_iff.mpr hp)]
      rfl
    · obtain ⟨b, bs, hbytes, -, htails⟩ := exists_utf8EncodeChar c
      have hp' : ¬ ofChars w <+: b :: (bs ++ ofChars cs) := by
        rwa [← List.cons_append, ← hbytes, ← ofChars_cons, prefix_ofChars_iff]
      rw [position?_cons hp, ofChars_cons, hbytes, List.cons_append,
        position?_cons hp', position?_tails_append hw htails, ih]
      simp only [Option.map_map, Function.comp_def, List.take_succ_cons, ofChars_cons, hbytes,
        List.length_append, List.length_cons]
      congr 1
      funext i
      omega

/-- Either scan of a text finds the characters it looks for nowhere, or behind the first of its
characters that they stand behind. -/
theorem position?_ofChars_cases (hw : w ≠ []) (cs : List Char) :
    (¬ w <:+: cs ∧ position? (ofChars w) (ofChars cs) = none) ∨
      ∃ front tail, cs = front ++ (w ++ tail) ∧ (∀ i < front.length, ¬ w <+: cs.drop i) ∧
        position? (ofChars w) (ofChars cs) = some (ofChars front).length := by
  rw [position?_ofChars hw]
  cases hpos : position? w cs with
  | none => exact .inl ⟨position?_eq_none_iff.mp hpos, rfl⟩
  | some i =>
    obtain ⟨⟨tail, htail⟩, hfirst⟩ := position?_eq_some hpos
    refine .inr ⟨cs.take i, tail, ?_, fun j hj => hfirst j ?_, rfl⟩
    · rw [htail, List.take_append_drop]
    · exact Nat.lt_of_lt_of_le hj (List.length_take_le i cs)

theorem takeWhile_ofChars {p : UInt8 → Bool} {q : Char → Bool}
    (h : ∀ c, ∀ x ∈ String.utf8EncodeChar c, p x = q c) (cs : List Char) :
    (ofChars cs).takeWhile p = ofChars (cs.takeWhile q) := by
  induction cs with
  | nil => rfl
  | cons c cs ih =>
    cases hq : q c with
    | true =>
      have hall : ∀ x ∈ String.utf8EncodeChar c, p x = true := fun x hx => (h c x hx).trans hq
      rw [List.takeWhile_cons_of_pos hq, ofChars_cons, ofChars_cons,
        List.takeWhile_append_of_pos hall, ih]
    | false =>
      obtain ⟨b, bs, hbytes, -, -⟩ := exists_utf8EncodeChar c
      have hb : ¬ p b = true := by
        rw [h c b (hbytes ▸ List.mem_cons_self), hq]
        exact nofun
      rw [List.takeWhile_cons_of_neg (by simp [hq]), ofChars_cons, hbytes, List.cons_append,
        List.takeWhile_cons_of_neg hb]
      rfl

end MailMerge.Utf8
