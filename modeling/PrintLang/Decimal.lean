import PrintLang.Binary64

/-!
# Decimal numbers

A decimal number is a coefficient times a power of ten.  This module gives its positional
text and the double nearest to it.

## Main Definitions

* `Decimal` — a coefficient and an exponent of ten
* `Decimal.text` — the digits in positional notation, never with an exponent
* `Decimal.nearestRank` — the rank of the double nearest to the number

## Design Notes

The exponent of a decimal number may be far outside the range of doubles.  `nearestRank`
settles such numbers by the size of the coefficient, so that no power of ten is computed
that is much longer than the coefficient itself.
-/

namespace PrintLang

/-- The number `coefficient * 10 ^ exponent`. -/
structure Decimal where
  /-- The digits of the number, read as a natural number. -/
  coefficient : Nat
  /-- The power of ten that the coefficient is multiplied by. -/
  exponent : Int
deriving DecidableEq

namespace Decimal

/-- The decimal digits of `n`, without leading zeros except for the single digit of zero. -/
def digits (n : Nat) : List Char :=
  Nat.toDigits 10 n

/-- Positional notation: with an exponent below zero a point stands before the last digits,
after at least one digit; otherwise zeros follow the coefficient. -/
def text (d : Decimal) : String :=
  match d.exponent with
  | .ofNat e => String.ofList (digits d.coefficient ++ List.replicate e '0')
  | .negSucc e =>
    let places := e + 1
    let shown := digits d.coefficient
    let padded := List.replicate (places + 1 - shown.length) '0' ++ shown
    let wholeLength := padded.length - places
    String.ofList (padded.take wholeLength ++ '.' :: padded.drop wholeLength)

/-- The rank of the double nearest to the number; halfway between two, the even one.

A positive number of at least `10 ^ 400` is above all finite doubles, and one below
`2 ^ (-1100)` is nearest to zero. -/
def nearestRank (d : Decimal) : Nat :=
  if d.coefficient = 0 then
    0
  else
    match d.exponent with
    | .ofNat e =>
      if 400 ≤ e then Binary64.infinityRank
      else Binary64.nearestRank (d.coefficient * Nat.pow 10 e * Nat.pow 2 1074) 1
    | .negSucc e =>
      if d.coefficient.log2 + 1 + 1100 < 3 * (e + 1) then 0
      else Binary64.nearestRank (d.coefficient * Nat.pow 2 1074) (Nat.pow 10 (e + 1))

end Decimal

end PrintLang
