import PrintLang.Number
import PrintLang.Fault

/-!
# Values

A value is a number or a text.  Two values are added by adding numbers or, if one of them is a
text, by joining their texts; the other operators take numbers only.

## Main Definitions

* `Value` — numbers and texts
* `Value.display` — the text of a value
* `Operator.apply` — the value of an operator on two values

## Design Notes

`==` compares numbers as IEEE 754 does, while `=` compares them bit by bit.
-/

namespace PrintLang

/-- What an expression evaluates to and a name is bound to. -/
inductive Value
  | number (value : Float)
  | text (value : String)
deriving BEq, DecidableEq

namespace Value

/-- The name of the type of a value. -/
def typeName : Value → String
  | number _ => "number"
  | text _ => "string"

/-- The text of a value, as it is printed: a number has its canonical text, and a text stands
for itself. -/
def display : Value → String
  | number value => Number.canonicalText value
  | text value => value

end Value

namespace Operator

/-- The fault of an operator between values that it does not take. -/
def refuse (operator : Operator) (span : Span) (left right : Value) : Fault :=
  (Fault.invalidOperation span operator left.typeName right.typeName).withHelp
    "Only '+' accepts strings; '-', '*' and '/' need two numbers."

/-- The value of an operator on two values, or the fault at the span of the operation. -/
def apply (operator : Operator) (span : Span) : Value → Value → Except Fault Value
  | .number left, .number right =>
    match operator with
    | add => .ok (.number (left + right))
    | subtract => .ok (.number (left - right))
    | multiply => .ok (.number (left * right))
    | divide =>
      if Binary64.rank right = 0 then .error (.divisionByZero span)
      else .ok (.number (left / right))
  | left, right =>
    match operator with
    | add => .ok (.text (left.display ++ right.display))
    | _ => .error (operator.refuse span left right)

end Operator

end PrintLang
