/-! # Binary floating point

The magnitudes of the 64-bit binary format, and the one nearest to a ratio of natural numbers.
A magnitude is a natural number below 2 ^ 53 times a power of two, whose exponent is at least
-1074 and at most 971.
-/

namespace MailMerge

/-- `mantissa * 2 ^ exponent`. -/
structure Binary64 where
  mantissa : Nat
  exponent : Int
  deriving DecidableEq, Repr

namespace Binary64

def precision : Nat := 53

def minExponent : Int := -1074

def maxExponent : Int := 971

def zero : Binary64 := ⟨0, minExponent⟩

/-- `num / den` rounded to a natural number; a half goes to the even neighbour. -/
def roundQuotient (num den : Nat) : Nat :=
  let q := num / den
  let rest := num % den
  if 2 * rest < den then q
  else if 2 * rest > den then q + 1
  else q + q % 2

def scaled (num den : Nat) (e : Int) : Nat × Nat :=
  (num * Nat.pow 2 (-e).toNat, den * Nat.pow 2 e.toNat)

/-- The least exponent, from `e` on, in whose units the quotient fits into a mantissa. -/
def fitExponent (num den : Nat) : (tries : Nat) → Int → Int
  | 0, e => e
  | tries + 1, e =>
    let (a, b) := scaled num den e
    if a / b < Nat.pow 2 precision then e else fitExponent num den tries (e + 1)

/-- The magnitude nearest to `num / den`, with ties to the even mantissa; nothing if that is
infinite. -/
def ofRatio? (num den : Nat) : Option Binary64 :=
  if num = 0 then some zero
  else
    let guess : Int := (Nat.log2 num : Int) - (Nat.log2 den : Int) - 54
    let e := fitExponent num den 4 (max minExponent guess)
    let (a, b) := scaled num den e
    let m := roundQuotient a b
    let r : Binary64 :=
      if m = Nat.pow 2 precision then ⟨Nat.pow 2 (precision - 1), e + 1⟩ else ⟨m, e⟩
    if r.exponent > maxExponent then none else some r

def ofNat? (n : Nat) : Option Binary64 := ofRatio? n 1

def ratio (x : Binary64) : Nat × Nat :=
  (x.mantissa * Nat.pow 2 x.exponent.toNat, Nat.pow 2 (-x.exponent).toNat)

def mul? (x y : Binary64) : Option Binary64 :=
  ofRatio? (x.ratio.1 * y.ratio.1) (x.ratio.2 * y.ratio.2)

def div? (x y : Binary64) : Option Binary64 :=
  ofRatio? (x.ratio.1 * y.ratio.2) (x.ratio.2 * y.ratio.1)

def tenTo? (n : Nat) : Option Binary64 := ofNat? (Nat.pow 10 n)

/-- The magnitude nearest to `n * 10 ^ e`. Exponents far outside the range are settled first, by
the number of digits of `n`. -/
def ofDecimal? (n : Nat) (e : Int) : Option Binary64 :=
  let size : Int := (Nat.log2 n : Int) * 31 / 100 + e
  if n = 0 ∨ size < -400 then some zero
  else if size > 400 then none
  else ofRatio? (n * Nat.pow 10 e.toNat) (Nat.pow 10 (-e).toNat)

end Binary64

end MailMerge
