import PrintLang.Span

/-!
# Tokens

The words of the language: four keywords, names, numbers, texts in quotes, and six signs.  A
list of tokens ends with the token for the end of the source.

## Main Definitions

* `TokenKind` — the kinds of tokens, with their titles
* `Token` — a kind, the text it was read from and where that stands
* `Token.display` — the line that shows a token
-/

namespace PrintLang

/-- The kinds of tokens. -/
inductive TokenKind
  /-- The keyword `var`. -/
  | varWord
  /-- The keyword `print`. -/
  | printWord
  /-- The keyword `true`, which no statement uses. -/
  | trueWord
  /-- The keyword `false`, which no statement uses. -/
  | falseWord
  /-- Any other word. -/
  | name
  /-- A run of digits. -/
  | number
  /-- A text between quotes. -/
  | text
  /-- The sign `=`. -/
  | equals
  /-- The sign `+`. -/
  | plus
  /-- The sign `-`. -/
  | minus
  /-- The sign `*`. -/
  | star
  /-- The sign `/`. -/
  | slash
  /-- The sign `;`, which ends every statement. -/
  | semicolon
  /-- The end of the source. -/
  | endOfInput
deriving DecidableEq, Repr

namespace TokenKind

/-- The name of a kind in messages and displays. -/
def title : TokenKind → String
  | varWord => "Var"
  | printWord => "Print"
  | trueWord => "True"
  | falseWord => "False"
  | name => "Identifier"
  | number => "Number"
  | text => "String"
  | equals => "Equal"
  | plus => "Plus"
  | minus => "Minus"
  | star => "Multiply"
  | slash => "Divide"
  | semicolon => "Semicolon"
  | endOfInput => "EndOfInput"

/-- The kind of a word: one of the four keywords or a name. -/
def ofWord (word : String) : TokenKind :=
  if word = "var" then varWord
  else if word = "print" then printWord
  else if word = "true" then trueWord
  else if word = "false" then falseWord
  else name

/-- The kind of a sign, if the character is one. -/
def ofSign? (c : Char) : Option TokenKind :=
  match c with
  | '=' => some equals
  | '+' => some plus
  | '-' => some minus
  | '*' => some star
  | '/' => some slash
  | ';' => some semicolon
  | _ => none

end TokenKind

/-- A token with the text it was read from.  The lexeme of a text leaves out the quotes, while
its span includes them. -/
structure Token where
  /-- What the token is. -/
  kind : TokenKind
  /-- The characters of the token. -/
  lexeme : String
  /-- Where the token stands in the source. -/
  span : Span
deriving DecidableEq, Repr

namespace Token

/-- The kind of a token with its lexeme in quotes and brackets. -/
def display (token : Token) : String :=
  token.kind.title ++ "('" ++ token.lexeme ++ "')"

end Token

end PrintLang
