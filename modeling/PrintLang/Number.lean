import PrintLang.Decimal.Shortest

/-!
# Texts of numbers

A number has two texts.  The *canonical* text, which programs print, ends in `.0` for a whole
number and shows all of its digits; other numbers have the shortest digits that read back.
The *plain* text, which displays of syntax trees show, has the shortest digits in both cases
and no point for a whole number.  Neither ever has an exponent.

## Main Definitions

* `Number.canonicalText` — the text that programs print
* `Number.plainText` — the text in displays of syntax trees
-/

namespace PrintLang

namespace Number

/-- Whether the finite double of a rank is a whole number. -/
def IsWhole (rank : Nat) : Prop :=
  Binary64.quanta rank % Nat.pow 2 1074 = 0

instance (rank : Nat) : Decidable (IsWhole rank) := by
  unfold IsWhole
  infer_instance

/-- The text of a double whose finite magnitudes are written by `finite`: a minus sign stands
before everything but the word for no number. -/
def textBy (finite : Nat → String) (x : Float) : String :=
  let rank := Binary64.rank x
  if Binary64.infinityRank < rank then
    "NaN"
  else
    let magnitude := if rank = Binary64.infinityRank then "inf" else finite rank
    if Binary64.isNegative x then "-" ++ magnitude else magnitude

/-- The text that programs print: whole numbers exactly and with one place, other numbers with
the shortest digits that read back. -/
def canonicalText (x : Float) : String :=
  textBy
    (fun rank =>
      if IsWhole rank then
        (Decimal.mk (Binary64.quanta rank / Nat.pow 2 1074) 0).text ++ ".0"
      else
        (Shortest.decimal rank).text)
    x

/-- The text in displays of syntax trees: the shortest digits that read back. -/
def plainText (x : Float) : String :=
  textBy (fun rank => (Shortest.decimal rank).text) x

end Number

end PrintLang
