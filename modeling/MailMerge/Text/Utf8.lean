/-! # Texts as bytes

Paths and file contents are bytes, and most of them are the UTF-8 form of a text. `encode`
and `decode?` go between the two; `lossy` shows any bytes, with U+FFFD for what is no text.
-/

namespace MailMerge

abbrev Bytes := List UInt8

namespace Utf8

def encode (s : String) : Bytes := s.toByteArray.data.toList

def decode? (b : Bytes) : Option String := String.fromUTF8? ⟨b.toArray⟩

def isTail (b : UInt8) : Bool := 0x80 ≤ b && b ≤ 0xBF

/-- How many bytes a character with this first byte takes, and which second bytes it allows;
nothing for a byte that starts no character. -/
def leadShape (b : UInt8) : Option (Nat × UInt8 × UInt8) :=
  if b ≤ 0x7F then some (1, 0x80, 0xBF)
  else if 0xC2 ≤ b && b ≤ 0xDF then some (2, 0x80, 0xBF)
  else if b = 0xE0 then some (3, 0xA0, 0xBF)
  else if b = 0xED then some (3, 0x80, 0x9F)
  else if 0xE1 ≤ b && b ≤ 0xEF then some (3, 0x80, 0xBF)
  else if b = 0xF0 then some (4, 0x90, 0xBF)
  else if b = 0xF4 then some (4, 0x80, 0x8F)
  else if 0xF1 ≤ b && b ≤ 0xF3 then some (4, 0x80, 0xBF)
  else none

/-- How many of the leading bytes belong together: one whole character, or the longest start of
one. The flag tells which. -/
def chunk : Bytes → Nat × Bool
  | [] => (0, true)
  | b :: rest =>
    match leadShape b with
    | none => (1, false)
    | some (size, low, high) =>
      let second := (rest.take (min 1 (size - 1))).takeWhile fun c => low ≤ c && c ≤ high
      let others :=
        if second.isEmpty then [] else ((rest.drop 1).take (size - 2)).takeWhile isTail
      let got := 1 + second.length + others.length
      (got, got == size)

/-- Shows bytes as a text: each longest start of a character that stays unfinished, and each byte
that starts none, becomes one U+FFFD. -/
def lossyFrom : Nat → Bytes → List Char
  | 0, _ => []
  | _ + 1, [] => []
  | fuel + 1, b :: rest =>
    let (size, whole) := chunk (b :: rest)
    let shown :=
      if whole then ((decode? ((b :: rest).take size)).map String.toList).getD ['\uFFFD']
      else ['\uFFFD']
    shown ++ lossyFrom fuel ((b :: rest).drop size)

def lossy (b : Bytes) : String :=
  (decode? b).getD (String.ofList (lossyFrom b.length b))

@[simp] theorem decode?_encode (s : String) : decode? (encode s) = some s := by
  have h : (⟨(encode s).toArray⟩ : ByteArray) = s.toByteArray := by simp [encode]
  rw [decode?, h, String.fromUTF8?, dif_pos s.isValidUTF8]
  rfl

theorem encode_of_decode? {b : Bytes} {s : String} (h : decode? b = some s) : encode s = b := by
  simp only [decode?, String.fromUTF8?] at h
  split at h
  · cases h; rfl
  · cases h

theorem decode?_eq_some_iff {b : Bytes} {s : String} : decode? b = some s ↔ b = encode s :=
  ⟨fun h => (encode_of_decode? h).symm, fun h => h ▸ decode?_encode s⟩

theorem encode_injective {s t : String} (h : encode s = encode t) : s = t := by
  have hd := decode?_encode s
  rw [h, decode?_encode] at hd
  exact (Option.some.inj hd).symm

@[simp] theorem encode_append (s t : String) : encode (s ++ t) = encode s ++ encode t := by
  simp [encode]

@[simp] theorem length_encode (s : String) : (encode s).length = s.utf8ByteSize := rfl

@[simp] theorem lossy_encode (s : String) : lossy (encode s) = s := by simp [lossy]

end Utf8

end MailMerge
