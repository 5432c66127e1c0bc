/-! # Hexadecimal numbers -/

namespace MailMerge.Hexadecimal

def value? (c : Char) : Option Nat :=
  if c.isDigit then some (c.toNat - 48)
  else if decide ('a' ≤ c) && decide (c ≤ 'f') then some (c.toNat - 87)
  else if decide ('A' ≤ c) && decide (c ≤ 'F') then some (c.toNat - 55)
  else none

/-- The number that digits stand for; none at all stand for zero. -/
def read? (digits : List Char) : Option Nat :=
  digits.foldlM (fun n c => (value? c).map (n * 16 + ·)) 0

def write (digit : Nat → Char) : (size : Nat) → Nat → List Char
  | 0, _ => []
  | size + 1, n => write digit size (n / 16) ++ [digit (n % 16)]

def lower (n : Nat) : Char := Nat.digitChar n

def upper (n : Nat) : Char := (Nat.digitChar n).toUpper

end MailMerge.Hexadecimal
