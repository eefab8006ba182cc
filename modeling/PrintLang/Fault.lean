import PrintLang.Token
import PrintLang.Operator

/-!
# Faults

A fault is what stops a program: a character that no token starts with, a token that no
statement goes on with, or something that cannot be carried out while the program runs.

## Main Definitions

* `Cause` — what went wrong, with its message
* `Stage` — the stage of the program's life that a cause belongs to
* `Fault` — a cause, where it was found, and advice on how to mend it

## Design Notes

A cause holds what its message is made of, so the message is a function of the cause.  The
constructors of `Fault` fix the span and the advice that go with a cause; `Fault.withHelp`
replaces the advice.
-/

namespace PrintLang

/-- What went wrong. -/
inductive Cause
  /-- A character that starts no token. -/
  | unknownCharacter (symbol : Char) (position : Nat)
  /-- A token that cannot stand where it stands, with the complaint about it and a
  description of what could stand there. -/
  | unexpectedToken (complaint expected : String) (found : TokenKind) (lexeme : String)
  /-- A name that no assignment has bound yet. -/
  | undefinedVariable (name : String)
  /-- An operator between operands of types that it does not take. -/
  | invalidOperation (operator : Operator) (left right : String)
  /-- A division by a zero of either sign. -/
  | divisionByZero
  /-- A statement in the place of an operand. -/
  | notAnExpression
  /-- A line that could not be written as a whole. -/
  | outputRefused (reason : String)
deriving DecidableEq, Repr

namespace Cause

/-- How a message speaks of the token that was found. -/
def foundText (found : TokenKind) (lexeme : String) : String :=
  if found = .endOfInput then "end of input" else found.title ++ " '" ++ lexeme ++ "'"

/-- The message about a cause. -/
def message : Cause → String
  | unknownCharacter symbol position =>
    "Unexpected character '" ++ String.singleton symbol ++ "' at position " ++ toString position
  | unexpectedToken complaint _ found lexeme =>
    complaint ++ ", found " ++ foundText found lexeme
  | undefinedVariable name => "Undefined variable '" ++ name ++ "'"
  | invalidOperation operator left right =>
    "Invalid operation '" ++ operator.symbol ++ "' for " ++ left ++ " and " ++ right
  | divisionByZero => "Division by zero"
  | notAnExpression => "Statement used where an expression was expected"
  | outputRefused reason => "Failed to write program output: " ++ reason

end Cause

/-- The stage of a program's life in which a fault is found. -/
inductive Stage
  /-- Reading characters into tokens. -/
  | lexical
  /-- Reading tokens into statements. -/
  | parse
  /-- Carrying out the statements. -/
  | run
deriving DecidableEq, Repr

namespace Stage

/-- The heading of reports about faults of a stage. -/
def title : Stage → String
  | lexical => "Lexical Error"
  | parse => "Parse Error"
  | run => "Runtime Error"

/-- The terminal color of a stage: red, yellow or magenta. -/
def color : Stage → String
  | lexical => "31"
  | parse => "33"
  | run => "35"

end Stage

/-- The stage in which a cause arises. -/
def Cause.stage : Cause → Stage
  | unknownCharacter .. => .lexical
  | unexpectedToken .. => .parse
  | _ => .run

/-- A cause together with the place where it was found and advice for the writer. -/
structure Fault where
  /-- What went wrong. -/
  cause : Cause
  /-- The characters that the fault is about. -/
  span : Span
  /-- How the program could be mended. -/
  help : Option String := none
deriving DecidableEq, Repr

namespace Fault

/-- The message of a fault is that of its cause. -/
def message (fault : Fault) : String :=
  fault.cause.message

/-- The fault with other advice. -/
def withHelp (fault : Fault) (help : String) : Fault :=
  { fault with help := some help }

/-- A character that starts no token. -/
def unknownCharacter (symbol : Char) (position : Nat) : Fault where
  cause := .unknownCharacter symbol position
  span := .single position

/-- A token that cannot stand where it stands. -/
def unexpectedToken (span : Span) (complaint expected : String) (found : TokenKind)
    (lexeme : String) : Fault where
  cause := .unexpectedToken complaint expected found lexeme
  span := span

/-- A name that is not bound. -/
def undefinedVariable (span : Span) (name : String) : Fault where
  cause := .undefinedVariable name
  span := span
  help := some "Declare it first, e.g. `var name = value;`"

/-- An operator between operands that it does not take. -/
def invalidOperation (span : Span) (operator : Operator) (left right : String) : Fault where
  cause := .invalidOperation operator left right
  span := span

/-- A division by zero. -/
def divisionByZero (span : Span) : Fault where
  cause := .divisionByZero
  span := span

/-- A statement in the place of an operand. -/
def notAnExpression (span : Span) : Fault where
  cause := .notAnExpression
  span := span

/-- A line that could not be written as a whole. -/
def outputRefused (span : Span) (reason : String) : Fault where
  cause := .outputRefused reason
  span := span

end Fault

end PrintLang
