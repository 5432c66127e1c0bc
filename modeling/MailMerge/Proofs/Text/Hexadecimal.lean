import MailMerge.Text.Hexadecimal
import Mathlib.Algebra.Group.Nat.Defs

/-! # Hexadecimal numbers read back

The last digits of a number are read back as the number modulo a power of sixteen, in either case
of the digits.
-/

namespace MailMerge.Hexadecimal

theorem value?_lower : ∀ k < 16, value? (lower k) = some k := by decide

theorem value?_upper : ∀ k < 16, value? (upper k) = some k := by decide

theorem read?_append (ds : List Char) (c : Char) :
    read? (ds ++ [c]) = (read? ds).bind fun n => (value? c).map (n * 16 + ·) := by
  rw [read?, List.foldlM_append]
  cases h : read? ds with
  | none =>
    rw [read?] at h
    rw [h]
    rfl
  | some n =>
    rw [read?] at h
    rw [h]
    show (value? c).map (n * 16 + ·) >>= pure = _
    rw [bind_pure]
    rfl

theorem read?_write {digit : Nat → Char} (hdigit : ∀ k < 16, value? (digit k) = some k)
    (size n : Nat) : read? (write digit size n) = some (n % 16 ^ size) := by
  induction size generalizing n with
  | zero => simp [write, read?, Nat.mod_one]
  | succ size ih =>
    rw [write, read?_append, ih, Option.bind_some, hdigit _ (Nat.mod_lt _ (by decide)),
      Option.map_some, Option.some.injEq, Nat.pow_succ, Nat.mul_comm (16 ^ size),
      Nat.mod_mul]
    omega

theorem read?_write_of_lt {digit : Nat → Char} (hdigit : ∀ k < 16, value? (digit k) = some k)
    {size n : Nat} (hn : n < 16 ^ size) : read? (write digit size n) = some n := by
  rw [read?_write hdigit, Nat.mod_eq_of_lt hn]

end MailMerge.Hexadecimal
