import PrintLang.Decimal

/-!
# Shortest decimals that read back

Among the decimal numbers that are nearer to a double than to any other double, the shortest
has the fewest digits, and of those it is the one nearest to the double.

## Main Definitions

* `Shortest.Bracket` — a double with the midpoints to its neighbours
* `Shortest.Bracket.ReadsBack` — whether a decimal number rounds to the double
* `Shortest.decimal` — the shortest decimal number that does

## Design Notes

Everything is counted in units of `10 ^ (-1074)`, of which each quantum holds `5 ^ 1074`, so
that doubles and decimals are both whole numbers.  The midpoints between neighbouring doubles
need half units, hence they are held twice over.

If any multiple of `10 ^ k` reads back, so does one of the two multiples around the double.
The search therefore tries these two on ever finer grids; it ends at the latest with the grid
of single units, which holds the double itself.
-/

namespace PrintLang

namespace Shortest

/-- The number of units of `10 ^ (-1074)` in one quantum. -/
def unitsPerQuantum : Nat := Nat.pow 5 1074

/-- The value of the finite double of a rank, in units of `10 ^ (-1074)`. -/
def units (rank : Nat) : Nat :=
  Binary64.quanta rank * unitsPerQuantum

/-- A finite double with the midpoints to its neighbours, in units of `10 ^ (-1074)`. -/
structure Bracket where
  /-- The value of the double. -/
  value : Nat
  /-- Twice the midpoint to the double below. -/
  lower : Nat
  /-- Twice the midpoint to the double above. -/
  upper : Nat
  /-- Whether the midpoints themselves round to the double. -/
  closed : Bool
deriving DecidableEq, Repr

namespace Bracket

/-- The bracket of the finite double of a rank.  Midpoints round to the even rank. -/
def ofRank (rank : Nat) : Bracket where
  value := units rank
  lower := units (rank - 1) + units rank
  upper := units rank + units (rank + 1)
  closed := rank % 2 = 0

/-- Whether a number of units rounds to the double. -/
def ReadsBack (bracket : Bracket) (amount : Nat) : Prop :=
  if bracket.closed then bracket.lower ≤ 2 * amount ∧ 2 * amount ≤ bracket.upper
  else bracket.lower < 2 * amount ∧ 2 * amount < bracket.upper

instance (bracket : Bracket) (amount : Nat) : Decidable (bracket.ReadsBack amount) := by
  unfold ReadsBack
  infer_instance

/-- The nearer of the two multiples of `unit` around the double that read back, the upper one
if both are equally near, given as a multiple. -/
def onGrid (bracket : Bracket) (unit : Nat) : Option Nat :=
  let below := bracket.value / unit
  if bracket.ReadsBack (below * unit) then
    if bracket.ReadsBack ((below + 1) * unit) ∧ unit ≤ 2 * (bracket.value % unit) then
      some (below + 1)
    else
      some below
  else if bracket.ReadsBack ((below + 1) * unit) then
    some (below + 1)
  else
    none

/-- The first hit on the grids of `10 ^ k`, `10 ^ (k - 1)` and so on. -/
def search (bracket : Bracket) : Nat → Decimal
  | 0 => ⟨bracket.value, -1074⟩
  | k + 1 =>
    match bracket.onGrid (Nat.pow 10 (k + 1)) with
    | some multiple => ⟨multiple, (k + 1 : Int) - 1074⟩
    | none => search bracket k

end Bracket

/-- A number of decimal digits that suffices for `n`, since `30103 / 100000` is a little more
than the logarithm of two to base ten. -/
def digitBound (n : Nat) : Nat :=
  (n.log2 + 1) * 30103 / 100000 + 1

/-- The shortest decimal number that reads back as the finite double of a rank. -/
def decimal (rank : Nat) : Decimal :=
  if rank = 0 then ⟨0, 0⟩ else (Bracket.ofRank rank).search (digitBound (units rank))

end Shortest

end PrintLang
