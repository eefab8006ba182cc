import PrintLang.Span
import PrintLang.Operator
import PrintLang.Number

/-!
# Syntax trees

Statements and expressions are trees of one type.  Every node knows the span of the text that
it was read from.

## Main Definitions

* `Tree` — the trees
* `Tree.span` — the span of the root
* `Tree.joined` — the tree of an operator and its two operands
* `Tree.display` — the line that shows a tree

## Design Notes

The type admits trees that no program text yields, such as a statement in the place of an
operand; carrying out such a tree is a fault of its own.  `==` compares the numbers of two
trees as IEEE 754 does, so that a tree with a number that is none differs from itself, while
`=` compares them bit by bit.
-/

namespace PrintLang

/-- A statement or an expression. -/
inductive Tree
  /-- Binds a name to the value of an expression. -/
  | assign (name : String) (value : Tree) (span : Span)
  /-- Prints the value of an expression. -/
  | print (value : Tree) (span : Span)
  /-- Joins the values of two expressions. -/
  | operation (left : Tree) (operator : Operator) (right : Tree) (span : Span)
  /-- A number that stands for itself. -/
  | number (value : Float) (span : Span)
  /-- A text that stands for itself. -/
  | text (value : String) (span : Span)
  /-- A name that stands for the value it is bound to. -/
  | reference (name : String) (span : Span)
deriving BEq, DecidableEq

namespace Tree

/-- Where the tree stands in the source. -/
def span : Tree → Span
  | assign _ _ span => span
  | print _ span => span
  | operation _ _ _ span => span
  | number _ span => span
  | text _ span => span
  | reference _ span => span

/-- The operation on two operands, which reaches from the start of the left one to the end of
the right one. -/
def joined (left : Tree) (operator : Operator) (right : Tree) : Tree :=
  operation left operator right ⟨left.span.start, right.span.stop⟩

/-- The kinds of the nodes with their contents in brackets; texts are shown as they are. -/
def display : Tree → String
  | assign name value _ => "Assign(" ++ name ++ " = " ++ value.display ++ ")"
  | print value _ => "Print(" ++ value.display ++ ")"
  | operation left operator right _ =>
    "BinaryOp(" ++ left.display ++ " " ++ operator.symbol ++ " " ++ right.display ++ ")"
  | number value _ => "Number(" ++ Number.plainText value ++ ")"
  | text value _ => "String(\"" ++ value ++ "\")"
  | reference name _ => "Variable(" ++ name ++ ")"

end Tree

end PrintLang
