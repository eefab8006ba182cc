import PrintLang.Decimal

/-!
# Numerals

The texts that denote a number: an optional sign, then digits with at most one decimal point
among or around them and an optional power of ten, or one of the words `inf`, `infinity` and
`nan` in any mixture of cases.

## Main Definitions

* `Decimal.ofNumeral?` — the number denoted by a text of digits, point and exponent
* `Number.ofNumeral?` — the double denoted by a text

## Design Notes

An exponent stops growing with the first digit after it has reached `65536`.  All such
exponents are beyond the range of doubles unless tens of thousands of digits stand against
them.
-/

namespace PrintLang

namespace Decimal

/-- The natural number written by a list of decimal digits. -/
def ofDigits (digits : List Char) : Nat :=
  digits.foldl (fun n digit => 10 * n + (digit.toNat - '0'.toNat)) 0

/-- The exponent after the letter `e`: an optional sign and at least one digit. -/
def exponentOf? (text : List Char) : Option Int :=
  let (negative, digits) :=
    match text with
    | '-' :: rest => (true, rest)
    | '+' :: rest => (false, rest)
    | _ => (false, text)
  if digits.isEmpty || !digits.all Char.isDigit then
    none
  else
    let size := digits.foldl
      (fun n digit => if n < 65536 then 10 * n + (digit.toNat - '0'.toNat) else n) 0
    some (if negative then -(size : Int) else size)

/-- The number denoted by digits, an optional point and an optional exponent.  At least one
digit stands before or after the point. -/
def ofNumeral? (text : List Char) : Option Decimal :=
  let (whole, rest) := text.span Char.isDigit
  let (fraction, rest) :=
    match rest with
    | '.' :: rest => rest.span Char.isDigit
    | _ => ([], rest)
  if whole.isEmpty && fraction.isEmpty then
    none
  else
    let number (exponent : Int) : Decimal :=
      ⟨ofDigits (whole ++ fraction), exponent - fraction.length⟩
    match rest with
    | [] => some (number 0)
    | letter :: rest =>
      if letter = 'e' ∨ letter = 'E' then (exponentOf? rest).map number else none

end Decimal

namespace Number

/-- The double that is no number. -/
def nan : Float :=
  Float.ofBits 0x7FF8000000000000

/-- The double denoted by a text, rounded to the nearest, halfway to the even one. -/
def ofNumeral? (text : String) : Option Float :=
  let (negative, magnitude) :=
    match text.toList with
    | '-' :: rest => (true, rest)
    | '+' :: rest => (false, rest)
    | other => (false, other)
  match Decimal.ofNumeral? magnitude with
  | some number => some (Binary64.ofRank negative number.nearestRank)
  | none =>
    let word := magnitude.map Char.toLower
    if word = "inf".toList ∨ word = "infinity".toList then
      some (Binary64.ofRank negative Binary64.infinityRank)
    else if word = "nan".toList then
      some nan
    else
      none

end Number

end PrintLang
