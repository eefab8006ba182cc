import PrintLang.Fault
import PrintLang.Tree

/-!
# Complaints

A token that no statement goes on with is refused with a complaint.  It depends on how far the
statement has been read, and for its last part on what kind of statement it is.

## Main Definitions

* `Opening` — the part of a statement before its expression
* `Complaint` — what is said about a token
* `Complaint.fault`, `Complaint.about` — the fault of a complaint
-/

namespace PrintLang

/-- The part of a statement before its expression, with the position where it starts. -/
inductive Opening
  /-- The words `var name =`. -/
  | declaration (start : Nat) (name : String)
  /-- The words `name =`. -/
  | assignment (start : Nat) (name : String)
  /-- The word `print`. -/
  | print (start : Nat)
deriving DecidableEq, Repr

namespace Opening

/-- The statement that a semicolon ending before `stop` completes. -/
def statement (opening : Opening) (value : Tree) (stop : Nat) : Tree :=
  match opening with
  | declaration start name => .assign name value ⟨start, stop⟩
  | assignment start name => .assign name value ⟨start, stop⟩
  | print start => .print value ⟨start, stop⟩

end Opening

/-- What is said about a token that may not stand where it stands. -/
structure Complaint where
  /-- What is wrong. -/
  text : String
  /-- What may follow. -/
  expected : String
  /-- Advice for the writer. -/
  help : Option String := none

namespace Complaint

/-- The complaint before a statement. -/
def statement : Complaint where
  text := "Unknown statement"
  expected := "'var', 'print' or an assignment"
  help := some "Statements start with `var name = ...;`, `name = ...;` or `print ...;`."

/-- The complaint after `var`. -/
def variableName : Complaint where
  text := "Expected variable name after 'var'"
  expected := TokenKind.name.title

/-- The complaint after `var` and a name. -/
def equalsSign : Complaint where
  text := "Expected '=' after variable name"
  expected := TokenKind.equals.title

/-- The complaint before an operand. -/
def operand : Complaint where
  text := "Expected number, string, or identifier"
  expected := "number, string, or identifier"

/-- The complaint about a number token whose lexeme denotes no number. -/
def numeral : Complaint where
  text := "Invalid number literal"
  expected := "digits"

/-- The complaint after the expression of a statement. -/
def semicolon (opening : Opening) : Complaint where
  text :=
    match opening with
    | .declaration .. => "Expected ';' after variable declaration"
    | .assignment .. => "Expected ';' after assignment"
    | .print .. => "Expected ';' after print value"
  expected := TokenKind.semicolon.title

/-- The fault about a token of the given kind and lexeme at the given span. -/
def fault (complaint : Complaint) (span : Span) (found : TokenKind) (lexeme : String) : Fault where
  cause := .unexpectedToken complaint.text complaint.expected found lexeme
  span := span
  help := complaint.help

/-- The fault about a token. -/
def about (complaint : Complaint) (token : Token) : Fault :=
  complaint.fault token.span token.kind token.lexeme

end Complaint

end PrintLang
