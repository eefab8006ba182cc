import PrintLang.Grammar.Complaint
import PrintLang.Decimal.Numeral

/-!
# Places in the grammar

A program is a sequence of statements:

    statement  := "var" name "=" expression ";"
                | name "=" expression ";"
                | "print" expression ";"
    expression := term (("+" | "-") term)*
    term       := operand (("*" | "/") operand)*
    operand    := number | text | name

Operators of equal rank join from left to right.  Since no rule of the grammar nests, a place
in it is one of finitely many, and the tokens of a program lead from place to place.

## Main Definitions

* `Waiting` — what has been read of an expression before an operand
* `Place` — a place in the grammar, with what has been read of the current statement
* `Place.step` — the place after one more token, and the statement that it completes

## Design Notes

What may follow is decided by the place alone, and a token that may not follow is refused with
the complaint of the place.  The one exception is a name at the start of a statement: it is
refused only once it turns out that no equals sign follows it.
-/

namespace PrintLang

/-- Operands and operators on the left of the next operand: a sum that waits for a term, and a
product that waits for a factor. -/
structure Waiting where
  /-- The terms so far and the operator after them. -/
  sum : Option (Tree × Operator)
  /-- The factors of the current term so far and the operator after them. -/
  product : Option (Tree × Operator)

/-- The tree `right` joined to what waits for it. -/
def join (waiting : Option (Tree × Operator)) (right : Tree) : Tree :=
  match waiting with
  | none => right
  | some (left, operator) => left.joined operator right

/-- A place in the grammar. -/
inductive Place
  /-- Before a statement. -/
  | start
  /-- After a name at the start of a statement. -/
  | afterName (name : Token)
  /-- After `var`, which starts at `start`. -/
  | afterVar (start : Nat)
  /-- After `var` and a name. -/
  | afterVarName (start : Nat) (name : String)
  /-- Before an operand. -/
  | operand (opening : Opening) (waiting : Waiting)
  /-- After an operand, with the sum that waits for the current term and that term. -/
  | operator (opening : Opening) (sum : Option (Tree × Operator)) (term : Tree)

namespace Place

/-- What a place says about a token that may not follow. -/
def complaint : Place → Complaint
  | start => .statement
  | afterName _ => .statement
  | afterVar _ => .variableName
  | afterVarName .. => .equalsSign
  | operand .. => .operand
  | operator opening .. => .semicolon opening

/-- The fault about a token that may not follow. -/
def refuse (place : Place) (token : Token) : Fault :=
  match place with
  | afterName name => place.complaint.about name
  | _ => place.complaint.about token

/-- The fault at the end of the tokens, if the last one ends before `stop`. -/
def refuseEnd (place : Place) (stop : Nat) : Fault :=
  match place with
  | afterName name => place.complaint.about name
  | _ => place.complaint.fault (.atEnd stop) .endOfInput ""

/-- Before the first operand of a statement. -/
def expression (opening : Opening) : Place :=
  operand opening ⟨none, none⟩

/-- After an operand, which completes the factor that a product waits for. -/
def afterOperand (opening : Opening) (waiting : Waiting) (leaf : Tree) : Place :=
  operator opening waiting.sum (join waiting.product leaf)

/-- The operand that a token is, if it is one. -/
def leaf? (token : Token) : Except Fault (Option Tree) :=
  match token.kind with
  | .number =>
    match Number.ofNumeral? token.lexeme with
    | some value => .ok (some (.number value token.span))
    | none => .error (Complaint.numeral.about token)
  | .text => .ok (some (.text token.lexeme token.span))
  | .name => .ok (some (.reference token.lexeme token.span))
  | _ => .ok none

/-- The place after one more token, and the statement that the token completes. -/
def step (place : Place) (token : Token) : Except Fault (Place × Option Tree) :=
  match place with
  | start =>
    match token.kind with
    | .varWord => .ok (afterVar token.span.start, none)
    | .printWord => .ok (expression (.print token.span.start), none)
    | .name => .ok (afterName token, none)
    | _ => .error (place.refuse token)
  | afterName name =>
    match token.kind with
    | .equals => .ok (expression (.assignment name.span.start name.lexeme), none)
    | _ => .error (place.refuse token)
  | afterVar first =>
    match token.kind with
    | .name => .ok (afterVarName first token.lexeme, none)
    | _ => .error (place.refuse token)
  | afterVarName first name =>
    match token.kind with
    | .equals => .ok (expression (.declaration first name), none)
    | _ => .error (place.refuse token)
  | operand opening waiting =>
    match leaf? token with
    | .ok (some leaf) => .ok (afterOperand opening waiting leaf, none)
    | .ok none => .error (place.refuse token)
    | .error fault => .error fault
  | operator opening sum term =>
    match token.kind with
    | .star => .ok (operand opening ⟨sum, some (term, .multiply)⟩, none)
    | .slash => .ok (operand opening ⟨sum, some (term, .divide)⟩, none)
    | .plus => .ok (operand opening ⟨some (join sum term, .add), none⟩, none)
    | .minus => .ok (operand opening ⟨some (join sum term, .subtract), none⟩, none)
    | .semicolon => .ok (start, some (opening.statement (join sum term) token.span.stop))
    | _ => .error (place.refuse token)

end Place

end PrintLang
