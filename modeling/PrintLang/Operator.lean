/-!
# Operators

The four operators of expressions.

## Main Definitions

* `Operator` — addition, subtraction, multiplication and division
* `Operator.symbol` — the sign of an operator
-/

namespace PrintLang

/-- The operators that join two operands. -/
inductive Operator
  | add
  | subtract
  | multiply
  | divide
deriving DecidableEq, Repr

namespace Operator

/-- The sign of an operator. -/
def symbol : Operator → String
  | add => "+"
  | subtract => "-"
  | multiply => "*"
  | divide => "/"

end Operator

end PrintLang
