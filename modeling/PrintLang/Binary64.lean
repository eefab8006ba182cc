/-!
# Doubles by rank

The magnitudes of the IEEE 754 doubles, from zero over the subnormal and the normal numbers
to infinity, are numbered in ascending order by the low 63 bits of their encoding.  This
number is the *rank* of the double.  Every finite double is a whole number of *quanta* of
`2 ^ (-1074)`, so its value is a natural number as well, and exact arithmetic on doubles is
arithmetic on natural numbers.

## Main Definitions

* `Binary64.rank`, `Binary64.isNegative`, `Binary64.ofRank` — a double as sign and rank
* `Binary64.quanta` — the value of a rank, counted in quanta
* `Binary64.nearestRank` — the rank whose value is nearest to a quotient, ties to even

## Design Notes

A rank is even exactly if the significand of its double is even, since the significand is the
rank up to a multiple of `2 ^ 52`.  Rounding up past the largest significand of an exponent
carries into the next rank, so `nearestRank` needs no special case for it; past the largest
finite double it yields `infinityRank` or more, which `ofRank` takes for infinity.

Powers are written `Nat.pow`, which is the same function whichever instance `^` finds.
-/

namespace PrintLang

namespace Binary64

/-- The rank of infinity.  Lower ranks are finite; higher ranks encode that there is no number. -/
def infinityRank : Nat := 2047 * Nat.pow 2 52

/-- The position of the magnitude of `x` among all magnitudes. -/
def rank (x : Float) : Nat :=
  x.toBits.toNat % Nat.pow 2 63

/-- Whether the sign bit of `x` is set. -/
def isNegative (x : Float) : Bool :=
  Nat.pow 2 63 ≤ x.toBits.toNat

/-- The double of the given sign and rank; all ranks from `infinityRank` on are infinity. -/
def ofRank (negative : Bool) (rank : Nat) : Float :=
  Float.ofBits (UInt64.ofNat ((if negative then Nat.pow 2 63 else 0) + min rank infinityRank))

/-- The value of the finite double of a rank, in quanta of `2 ^ (-1074)`. -/
def quanta (rank : Nat) : Nat :=
  let exponent := rank / Nat.pow 2 52
  let fraction := rank % Nat.pow 2 52
  if exponent = 0 then fraction
  else (Nat.pow 2 52 + fraction) * Nat.pow 2 (exponent - 1)

/-- The whole number nearest to `num / den`; halfway between two, the even one. -/
def roundQuotient (num den : Nat) : Nat :=
  let quotient := num / den
  let remainder := num % den
  if 2 * remainder < den then quotient
  else if den < 2 * remainder then quotient + 1
  else quotient + quotient % 2

/-- The rank whose value is nearest to `num / den` quanta; halfway between two, the even one.

The quotient is cut to 53 binary digits, which are the significand, and the number of digits
cut off is the exponent. -/
def nearestRank (num den : Nat) : Nat :=
  let exponent := (num / den).log2 - 52
  exponent * Nat.pow 2 52 + roundQuotient num (den * Nat.pow 2 exponent)

end Binary64

end PrintLang
