import MailMerge.Decimal.Shortest

/-! # JSON numbers

A number as it is written, and what it stands for: a natural number below 2 ^ 64, a negative one
from -2 ^ 63 on, and a binary floating point number otherwise. Digits that do not fit into 64 bits
count only by their number.
-/

namespace MailMerge.Json

/-- A number as it is written: digits before the point, digits after it, and an exponent. -/
structure Number where
  negative : Bool
  whole : List Nat
  fraction : List Nat
  exponent : Option (Bool × List Nat)
  deriving DecidableEq, Repr

inductive Quantity
  | natural (n : Nat)
  | negative (n : Nat)
  | float (isNegative : Bool) (x : Binary64)
  deriving DecidableEq, Repr

namespace Quantity

def describe : Quantity → String
  | natural n => "integer \x60" ++ toString n ++ "\x60"
  | negative n => "integer \x60-" ++ toString n ++ "\x60"
  | float isNegative x =>
    "floating point \x60" ++ (if isNegative then "-" else "") ++ x.display ++ "\x60"

end Quantity

namespace Number

def wordLimit : Nat := 0xFFFFFFFFFFFFFFFF

/-- The largest exponent that is told apart from larger ones. -/
def exponentLimit : Nat := 0x7FFFFFFF

/-- Digits taken into the significand as long as it fits into 64 bits, and those left over. -/
def significand : (acc : Nat) → List Nat → Nat × List Nat
  | acc, [] => (acc, [])
  | acc, d :: ds =>
    if acc * 10 + d ≤ wordLimit then significand (acc * 10 + d) ds else (acc, d :: ds)

def exponentValue? : (acc : Nat) → List Nat → Option Nat
  | acc, [] => some acc
  | acc, d :: ds =>
    if acc * 10 + d ≤ exponentLimit then exponentValue? (acc * 10 + d) ds else none

/-- Divides by `10 ^ 308` as long as the exponent is below that. -/
def scaleDown : (tries : Nat) → Binary64 → Nat → Option Binary64
  | 0, _, _ => some Binary64.zero
  | tries + 1, x, down =>
    if x.mantissa = 0 then some x
    else if down ≤ 308 then do x.div? (← Binary64.tenTo? down)
    else do scaleDown tries (← x.div? (← Binary64.tenTo? 308)) (down - 308)

/-- The floating point number for a significand and a decimal exponent, found in rounded steps;
nothing if it is out of range. -/
def float? (n : Nat) (e : Int) : Option Binary64 := do
  let x ← Binary64.ofNat? n
  if e ≥ 0 then
    if e ≤ 308 then x.mul? (← Binary64.tenTo? e.toNat)
    else if n = 0 then some x
    else none
  else scaleDown 16 x (-e).toNat

def quantity? (n : Number) : Option Quantity :=
  let (sig, leftover) := significand 0 n.whole
  let (sig', dropped) := significand sig n.fraction
  let taken := n.fraction.length - dropped.length
  let shift : Int := (leftover.length : Int) - (taken : Int)
  match n.exponent with
  | some (isNegative, digits) =>
    match exponentValue? 0 digits with
    | some e => (float? sig' (if isNegative then shift - e else shift + e)).map (.float n.negative)
    | none =>
      if sig' ≠ 0 ∧ isNegative = false then none else some (.float n.negative Binary64.zero)
  | none =>
    if n.fraction ≠ [] ∨ leftover ≠ [] then (float? sig' shift).map (.float n.negative)
    else if n.negative = false then some (.natural sig)
    else if sig = 0 ∨ sig > Nat.pow 2 63 then (float? sig 0).map (.float true)
    else some (.negative sig)

end Number

end MailMerge.Json
