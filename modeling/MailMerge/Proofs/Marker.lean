import MailMerge.Rendering

/-! # What the search for markers finds

A text starts with a marker exactly if one is written at its start, and then with one only. So
the search fails on the texts in which no marker is written, and on the others it tells the marker
that starts first. Values pass the check if no marker is written in any of them.
-/

namespace MailMerge

/-- `w` is shaped like a token, known or not. -/
def IsMarker (w : List Char) : Prop :=
  ∃ word : List Char, (∀ c ∈ word, isMarkerLetter c = true) ∧ w = tokenStart ++ word ++ delimiter

theorem Placeholder.isMarker_tokenChars (p : Placeholder) : IsMarker p.tokenChars := by
  refine ⟨p.word, List.all_eq_true.mp ?_, rfl⟩
  cases p <;> decide

theorem isPrefixOf?_eq_some_iff {w cs tail : List Char} :
    w.isPrefixOf? cs = some tail ↔ w ++ tail = cs := by
  induction w generalizing cs with
  | nil =>
    show some cs = some tail ↔ tail = cs
    rw [Option.some.injEq, eq_comm]
  | cons c w ih =>
    cases cs with
    | nil =>
      show none = some tail ↔ _
      simp
    | cons c' cs =>
      show (if c == c' then w.isPrefixOf? cs else none) = some tail ↔ _
      by_cases hc : c = c'
      · simp [hc, ih]
      · simp [hc]

namespace Marker

variable {cs w : List Char} {offset : Nat}

theorem takeWhile_word {word : List Char} (hword : ∀ c ∈ word, isMarkerLetter c = true)
    (rest : List Char) :
    (word ++ (delimiter ++ rest)).takeWhile isMarkerLetter = word ∧
      (word ++ (delimiter ++ rest)).dropWhile isMarkerLetter = delimiter ++ rest := by
  have hend : ¬ isMarkerLetter '%' = true := by decide
  constructor
  · rw [List.takeWhile_append_of_pos hword, delimiter, List.cons_append,
      List.takeWhile_cons_of_neg hend, List.append_nil]
  · rw [List.dropWhile_append_of_pos hword, delimiter, List.cons_append,
      List.dropWhile_cons_of_neg hend]

theorem startOf?_eq_some_iff : startOf? cs = some w ↔ IsMarker w ∧ w <+: cs := by
  unfold startOf?
  constructor
  · intro h
    split at h
    · simp at h
    · rename_i tail htail
      obtain rfl := isPrefixOf?_eq_some_iff.mp htail
      simp only at h
      split at h
      · rename_i hclose
        obtain ⟨rest, hrest⟩ := List.isPrefixOf_iff_prefix.mp hclose
        obtain rfl := Option.some.inj h
        refine ⟨⟨_, fun c hc => List.all_eq_true.mp List.all_takeWhile c hc, rfl⟩, rest, ?_⟩
        rw [List.append_assoc, List.append_assoc, hrest, List.takeWhile_append_dropWhile]
      · simp at h
  · rintro ⟨⟨word, hword, rfl⟩, rest, rfl⟩
    obtain ⟨htake, hdrop⟩ := takeWhile_word hword rest
    have htail : tokenStart.isPrefixOf? (tokenStart ++ word ++ delimiter ++ rest) =
        some (word ++ (delimiter ++ rest)) :=
      isPrefixOf?_eq_some_iff.mpr (by simp only [List.append_assoc])
    have hclose : delimiter.isPrefixOf (delimiter ++ rest) = true :=
      List.isPrefixOf_iff_prefix.mpr (List.prefix_append _ _)
    simp only [htail, htake, hdrop, hclose, if_true]

theorem startOf?_eq_none_iff : startOf? cs = none ↔ ∀ w, IsMarker w → ¬ w <+: cs := by
  rw [Option.eq_none_iff_forall_ne_some]
  constructor
  · intro h w hw hp
    exact h w (startOf?_eq_some_iff.mpr ⟨hw, hp⟩)
  · intro h w hw
    obtain ⟨hmarker, hp⟩ := startOf?_eq_some_iff.mp hw
    exact h w hmarker hp

theorem not_isMarker_nil : ¬ IsMarker [] := by
  rintro ⟨word, -, h⟩
  simp [tokenStart] at h

theorem findFrom_eq_none_iff : findFrom offset cs = none ↔ ∀ w, IsMarker w → ¬ w <:+: cs := by
  induction cs generalizing offset with
  | nil =>
    simp only [findFrom, true_iff]
    intro w hw hinfix
    exact not_isMarker_nil (List.infix_nil.mp hinfix ▸ hw)
  | cons c cs ih =>
    cases hstart : startOf? (c :: cs) with
    | some w =>
      obtain ⟨hw, hp⟩ := startOf?_eq_some_iff.mp hstart
      simp only [findFrom, hstart, reduceCtorEq, false_iff]
      intro h
      exact h w hw hp.isInfix
    | none =>
      have hnone := startOf?_eq_none_iff.mp hstart
      simp only [findFrom, hstart, ih, List.infix_cons_iff, not_or]
      constructor
      · intro h w hw
        exact ⟨hnone w hw, h w hw⟩
      · intro h w hw
        exact (h w hw).2

end Marker

theorem findMarker_eq_none_iff {s : String} :
    findMarker s = none ↔ ∀ w, IsMarker w → ¬ w <:+: s.toList := by
  rw [findMarker, Option.map_eq_none_iff, Marker.findFrom_eq_none_iff]

/-- `w` is written in the text, behind `k` bytes of its UTF-8 form. -/
def WrittenAt (w : List Char) (k : Nat) (cs : List Char) : Prop :=
  ∃ before after, cs = before ++ w ++ after ∧ (String.ofList before).utf8ByteSize = k

/-- Of all markers that are written in the text, `w` behind `k` bytes is the one that starts
first. -/
structure IsFirstMarker (w : List Char) (k : Nat) (cs : List Char) : Prop where
  isMarker : IsMarker w
  written : WrittenAt w k cs
  le : ∀ v j, IsMarker v → WrittenAt v j cs → k ≤ j
  eq : ∀ v, IsMarker v → WrittenAt v k cs → v = w

theorem IsFirstMarker.unique {cs v w : List Char} {j k : Nat} (hv : IsFirstMarker v j cs)
    (hw : IsFirstMarker w k cs) : v = w ∧ j = k := by
  have hjk : j = k := Nat.le_antisymm (hv.le w k hw.isMarker hw.written)
    (hw.le v j hv.isMarker hv.written)
  subst hjk
  exact ⟨hw.eq v hv.isMarker hv.written, rfl⟩

namespace Marker

variable {cs v w : List Char} {c : Char} {k offset n : Nat}

theorem writtenAt_zero_iff : WrittenAt w 0 cs ↔ w <+: cs := by
  constructor
  · rintro ⟨before, after, rfl, hbytes⟩
    have hnil : before = [] := by
      simpa using congrArg String.toList (String.utf8ByteSize_eq_zero_iff.mp hbytes)
    exact ⟨after, by rw [hnil, List.nil_append]⟩
  · rintro ⟨after, rfl⟩
    exact ⟨[], after, rfl, rfl⟩

theorem writtenAt_cons_iff : WrittenAt w k (c :: cs) ↔
    (k = 0 ∧ w <+: c :: cs) ∨ ∃ j, k = c.utf8Size + j ∧ WrittenAt w j cs := by
  have hsize : ∀ before : List Char, (String.ofList (c :: before)).utf8ByteSize =
      c.utf8Size + (String.ofList before).utf8ByteSize := by
    intro before
    rw [String.ofList_cons, String.utf8ByteSize_append, String.utf8ByteSize_singleton]
  constructor
  · rintro ⟨before, after, heq, rfl⟩
    cases before with
    | nil => exact .inl ⟨rfl, after, heq.symm⟩
    | cons b before =>
      obtain ⟨rfl, rfl⟩ := List.cons.inj heq
      exact .inr ⟨_, hsize before, before, after, rfl, rfl⟩
  · rintro (⟨rfl, hp⟩ | ⟨j, rfl, before, after, rfl, rfl⟩)
    · exact writtenAt_zero_iff.mpr hp
    · exact ⟨c :: before, after, rfl, hsize before⟩

theorem infix_iff_writtenAt : w <:+: cs ↔ ∃ k, WrittenAt w k cs := by
  constructor
  · rintro ⟨before, after, rfl⟩
    exact ⟨_, before, after, rfl, rfl⟩
  · rintro ⟨-, before, after, rfl, -⟩
    exact ⟨before, after, rfl⟩

theorem eq_of_prefix (hv : IsMarker v) (hw : IsMarker w) (hvp : v <+: cs) (hwp : w <+: cs) :
    v = w := by
  have hsome := startOf?_eq_some_iff.mpr ⟨hv, hvp⟩
  rw [startOf?_eq_some_iff.mpr ⟨hw, hwp⟩] at hsome
  exact (Option.some.inj hsome).symm

theorem isFirstMarker_of_prefix (hw : IsMarker w) (hp : w <+: cs) : IsFirstMarker w 0 cs where
  isMarker := hw
  written := writtenAt_zero_iff.mpr hp
  le _ j _ _ := j.zero_le
  eq _ hv hvw := eq_of_prefix hv hw (writtenAt_zero_iff.mp hvw) hp

/-- Where no marker stands at the start, the first one is that of the text behind the first
letter. -/
theorem isFirstMarker_cons_iff (hstart : ∀ w, IsMarker w → ¬ w <+: c :: cs) :
    IsFirstMarker w k (c :: cs) ↔ ∃ j, k = c.utf8Size + j ∧ IsFirstMarker w j cs := by
  have hcons : ∀ v i, IsMarker v →
      (WrittenAt v i (c :: cs) ↔ ∃ j, i = c.utf8Size + j ∧ WrittenAt v j cs) := by
    intro v i hv
    rw [writtenAt_cons_iff, or_iff_right]
    rintro ⟨-, hp⟩
    exact hstart v hv hp
  constructor
  · rintro ⟨hw, hwritten, hle, heq⟩
    obtain ⟨j, rfl, hj⟩ := (hcons w k hw).mp hwritten
    refine ⟨j, rfl, hw, hj, ?_, ?_⟩
    · intro v i hv hi
      have := hle v (c.utf8Size + i) hv ((hcons v _ hv).mpr ⟨i, rfl, hi⟩)
      omega
    · intro v hv hvj
      exact heq v hv ((hcons v _ hv).mpr ⟨j, rfl, hvj⟩)
  · rintro ⟨j, rfl, hw, hj, hle, heq⟩
    refine ⟨hw, (hcons w _ hw).mpr ⟨j, rfl, hj⟩, ?_, ?_⟩
    · intro v i hv hi
      obtain ⟨i, rfl, hvi⟩ := (hcons v i hv).mp hi
      have := hle v i hv hvi
      omega
    · intro v hv hvj
      obtain ⟨i, hi, hvi⟩ := (hcons v _ hv).mp hvj
      obtain rfl := Nat.add_left_cancel hi
      exact heq v hv hvi

theorem findFrom_eq_some_iff :
    findFrom offset cs = some (w, n) ↔ ∃ k, n = offset + k ∧ IsFirstMarker w k cs := by
  induction cs generalizing offset with
  | nil =>
    simp only [findFrom, reduceCtorEq, false_iff]
    rintro ⟨k, -, hfirst⟩
    have hnil := infix_iff_writtenAt.mpr ⟨k, hfirst.written⟩
    exact not_isMarker_nil (List.infix_nil.mp hnil ▸ hfirst.isMarker)
  | cons c cs ih =>
    cases hstart : startOf? (c :: cs) with
    | some v =>
      obtain ⟨hv, hp⟩ := startOf?_eq_some_iff.mp hstart
      have hfirst := isFirstMarker_of_prefix hv hp
      simp only [findFrom, hstart, Option.some.injEq, Prod.mk.injEq]
      constructor
      · rintro ⟨rfl, rfl⟩
        exact ⟨0, rfl, hfirst⟩
      · rintro ⟨k, rfl, hw⟩
        obtain ⟨rfl, rfl⟩ := hw.unique hfirst
        exact ⟨rfl, rfl⟩
    | none =>
      have hnone := startOf?_eq_none_iff.mp hstart
      simp only [findFrom, hstart, ih, isFirstMarker_cons_iff hnone]
      constructor
      · rintro ⟨j, rfl, hj⟩
        exact ⟨c.utf8Size + j, Nat.add_assoc .., j, rfl, hj⟩
      · rintro ⟨k, rfl, j, rfl, hj⟩
        exact ⟨j, (Nat.add_assoc ..).symm, hj⟩

end Marker

theorem findMarker_eq_some_iff {s m : String} {k : Nat} :
    findMarker s = some (m, k) ↔ IsFirstMarker m.toList k s.toList := by
  rw [findMarker, Option.map_eq_some_iff]
  constructor
  · rintro ⟨⟨w, n⟩, hfound, hm⟩
    obtain ⟨rfl, rfl⟩ := Prod.mk.inj hm
    obtain ⟨k, rfl, hfirst⟩ := Marker.findFrom_eq_some_iff.mp hfound
    rwa [String.toList_ofList, Nat.zero_add]
  · intro hfirst
    refine ⟨(m.toList, k), ?_, by rw [String.ofList_toList]⟩
    exact Marker.findFrom_eq_some_iff.mpr ⟨k, (Nat.zero_add k).symm, hfirst⟩

/-- The search is for the leftmost marker: it fails only where none is written, and tells the one
that starts first with the number of bytes before it. -/
theorem findMarker_leftmost (s : String) :
    (findMarker s = none ↔ ∀ w, IsMarker w → ¬ w <:+: s.toList) ∧
      ∀ m k, findMarker s = some (m, k) ↔ IsFirstMarker m.toList k s.toList := by
  constructor
  · exact findMarker_eq_none_iff
  · intro m k
    exact findMarker_eq_some_iff

/-- One sign more in front, and a delimiter that two markers share. -/
example : findMarker "é%%%EMAIL_%%EMAIL_X%%" = some ("%%EMAIL_%%", 3) := by decide

theorem checkMisuse_eq_ok_iff {f : Fragments} : checkMisuse f = .ok () ↔
    ∀ p v, f.get? p = some v → ∀ w, IsMarker w → ¬ w <:+: v.toList := by
  unfold checkMisuse
  split
  · rename_i p marker hfound
    obtain ⟨⟨q, v⟩, hmem, hv⟩ := List.exists_of_findSome?_eq_some hfound
    simp only [reduceCtorEq, false_iff]
    intro h
    have hnone := findMarker_eq_none_iff.mpr (h q v (Fragments.mem_toList.mp hmem))
    simp [hnone] at hv
  · rename_i hnone
    simp only [true_iff]
    intro p v hv
    have h := List.findSome?_eq_none_iff.mp hnone (p, v) (Fragments.mem_toList.mpr hv)
    exact findMarker_eq_none_iff.mp (Option.map_eq_none_iff.mp h)

end MailMerge
