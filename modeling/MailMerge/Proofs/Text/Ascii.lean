import MailMerge.Text.Utf8

/-! # ASCII in UTF-8

A byte below `0x80` in the UTF-8 form of a text stands for an ASCII character of the text, and for
nothing else.
-/

namespace MailMerge.Utf8

theorem encode_eq_flatMap (s : String) : encode s = s.toList.flatMap String.utf8EncodeChar := by
  rw [encode, ← String.utf8Encode_toList, List.utf8Encode]
  simp

theorem mem_utf8EncodeChar_iff {b : UInt8} (hb : b.toNat < 128) (c : Char) :
    b ∈ String.utf8EncodeChar c ↔ c.toNat = b.toNat := by
  have hc : c.val.toNat = c.toNat := rfl
  rw [String.utf8EncodeChar, hc]
  generalize c.toNat = v
  split
  · simp only [List.mem_singleton, ← UInt8.toNat_inj, UInt8.toNat_ofNat']
    omega
  · split
    · simp only [List.mem_cons, List.not_mem_nil, or_false, ← UInt8.toNat_inj, UInt8.toNat_ofNat']
      omega
    · split <;>
        simp only [List.mem_cons, List.not_mem_nil, or_false, ← UInt8.toNat_inj,
          UInt8.toNat_ofNat'] <;>
        omega

theorem mem_encode_iff {b : UInt8} {c : Char} (hc : c.toNat = b.toNat) (hb : b.toNat < 128)
    (s : String) : b ∈ encode s ↔ c ∈ s.toList := by
  rw [encode_eq_flatMap, List.mem_flatMap]
  constructor
  · rintro ⟨e, he, hmem⟩
    have heq : e = c := Char.toNat_inj.mp (((mem_utf8EncodeChar_iff hb e).mp hmem).trans hc.symm)
    exact heq ▸ he
  · intro h
    exact ⟨c, h, (mem_utf8EncodeChar_iff hb c).mpr hc⟩

theorem utf8EncodeChar_of_ascii {b : UInt8} {c : Char} (hc : c.toNat = b.toNat)
    (hb : b.toNat < 128) : String.utf8EncodeChar c = [b] := by
  have hsize : c.utf8Size = 1 := by
    rw [Char.utf8Size_eq_one_iff, UInt32.le_iff_toNat_le]
    have hval : c.val.toNat = c.toNat := rfl
    have hmax : (127 : UInt32).toNat = 127 := rfl
    omega
  obtain ⟨b', hb'⟩ := List.length_eq_one_iff.mp ((String.length_utf8EncodeChar c).trans hsize)
  have hmem := (mem_utf8EncodeChar_iff hb c).mpr hc
  rw [hb', List.mem_singleton] at hmem
  rw [hb', hmem]

theorem head?_encode_iff {b : UInt8} {c : Char} (hc : c.toNat = b.toNat) (hb : b.toNat < 128)
    (s : String) : (encode s).head? = some b ↔ s.toList.head? = some c := by
  rw [encode_eq_flatMap]
  cases s.toList with
  | nil => simp
  | cons e cs =>
    obtain ⟨x, xs, hx⟩ := List.exists_cons_of_ne_nil (String.utf8EncodeChar_ne_nil (c := e))
    rw [List.flatMap_cons, hx, List.cons_append, List.head?_cons, List.head?_cons,
      Option.some.injEq, Option.some.injEq]
    constructor
    · rintro rfl
      have hmem : x ∈ String.utf8EncodeChar e := hx ▸ List.mem_cons_self
      exact Char.toNat_inj.mp (((mem_utf8EncodeChar_iff hb e).mp hmem).trans hc.symm)
    · rintro rfl
      rw [utf8EncodeChar_of_ascii hc hb] at hx
      exact (List.cons.inj hx).1.symm

theorem encode_eq_nil_iff {s : String} : encode s = [] ↔ s = "" := by
  constructor
  · intro h
    exact encode_injective (h.trans rfl)
  · rintro rfl
    rfl

end MailMerge.Utf8
