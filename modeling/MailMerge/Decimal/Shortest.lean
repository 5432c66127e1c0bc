import MailMerge.Decimal.Binary64

/-! # Shortest decimals

The decimal with the fewest digits that lies nearer to a magnitude than to any other one, written
without an exponent and always with a point.
-/

namespace MailMerge.Binary64

/-- `c * 10 ^ p` compared with `t / 4` units of `2 ^ e`: both sides as natural numbers. -/
def compareAt (p : Int) (e : Int) (c t : Nat) : Ordering :=
  let left := c * Nat.pow 10 p.toNat * Nat.pow 2 (2 - e).toNat
  let right := t * Nat.pow 2 (e - 2).toNat * Nat.pow 10 (-p).toNat
  compare left right

/-- Whether `c * 10 ^ p` is nearest to `x` among all magnitudes. The ends of the interval belong
to it if the mantissa is even; below a power of two the interval is half as long. -/
def readsBack (x : Binary64) (p : Int) (c : Nat) : Bool :=
  let low :=
    4 * x.mantissa -
      if x.mantissa = Nat.pow 2 (precision - 1) ∧ x.exponent > minExponent then 1 else 2
  let high := 4 * x.mantissa + 2
  let even := x.mantissa % 2 == 0
  let above := compareAt p x.exponent c low
  let below := compareAt p x.exponent c high
  (above == .gt || (even && above == .eq)) && (below == .lt || (even && below == .eq))

def floorAt (x : Binary64) (p : Int) : Nat :=
  (x.ratio.1 * Nat.pow 10 (-p).toNat) / (x.ratio.2 * Nat.pow 10 p.toNat)

/-- Whether `x` lies nearer to `c + 1` than to `c`, in units of `10 ^ p`; at equal distance the
even one counts as nearer. -/
def upperIsNearer (x : Binary64) (p : Int) (c : Nat) : Bool :=
  match compareAt (p - 1) x.exponent (10 * c + 5) (4 * x.mantissa) with
  | .lt => true
  | .gt => false
  | .eq => c % 2 == 1

/-- The candidate in units of `10 ^ p`, if one of the two neighbours of `x` reads back. -/
def candidateAt (x : Binary64) (p : Int) : Option Nat :=
  let c := x.floorAt p
  match x.readsBack p c, x.readsBack p (c + 1) with
  | true, true => some (if x.upperIsNearer p c then c + 1 else c)
  | true, false => some c
  | false, true => some (c + 1)
  | false, false => none

/-- The number of digits in front of the point, from a bound downwards. It is negative for a
value with zeros right after the point. -/
def pointFrom (x : Binary64) : (tries : Nat) → Int → Int
  | 0, k => k
  | tries + 1, k => if x.floorAt (k - 1) = 0 then pointFrom x tries (k - 1) else k

def shortestFrom (x : Binary64) (point : Int) : (tries n : Nat) → Nat × Int
  | 0, n => (x.floorAt (point - n), point - n)
  | tries + 1, n =>
    match x.candidateAt (point - n) with
    | some c => (c, point - n)
    | none => shortestFrom x point tries (n + 1)

def shortest (x : Binary64) : Nat × Int :=
  if x.mantissa = 0 then (0, 0) else x.shortestFrom (x.pointFrom 640 310) 17 1

def display (x : Binary64) : String :=
  let (c, p) := x.shortest
  let digits := Nat.toDigits 10 c
  let zeros (n : Nat) := List.replicate n '0'
  if p ≥ 0 then String.ofList (digits ++ zeros p.toNat ++ ['.', '0'])
  else
    let places := (-p).toNat
    let padded := zeros (places + 1 - digits.length) ++ digits
    let fraction := padded.drop (padded.length - places)
    let trimmed := (fraction.reverse.dropWhile (· == '0')).reverse
    String.ofList
      (padded.take (padded.length - places) ++ ['.'] ++ if trimmed.isEmpty then ['0'] else trimmed)

end MailMerge.Binary64
