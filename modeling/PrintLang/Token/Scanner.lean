import PrintLang.Fault
import PrintLang.Text.Alphabetic
import PrintLang.Text.Numeric

/-!
# Scanning

A source text is read into tokens one character at a time.  Between two characters the scanner
holds the tokens that are complete and the one that the next character may still extend.

## Main Definitions

* `Scanner` — the state between two characters
* `Scanner.step`, `Scanner.feed` — the state after one character and after many
* `Scanner.finish` — the tokens of the whole source, once it has been fed
* `Token.scan` — the tokens of a source text

## Design Notes

Words and numbers are as long as possible: they end with the first character that does not
extend them, which then starts the next token.  A text in quotes holds any characters up to the
next quote.  If there is none, it ends with the source, and `Scan.openQuote` says where it
began; that is no fault.  A character that starts no token is a fault and ends the scan.
-/

namespace PrintLang

/-- Whether a word may start with `c`. -/
def isWordStart (c : Char) : Bool :=
  isAlphabetic c || c == '_'

/-- Whether a word may go on with `c`. -/
def isWordPart (c : Char) : Bool :=
  isAlphabetic c || isNumeric c || c == '_'

/-- Whether `c` only separates tokens. -/
def isSeparator (c : Char) : Bool :=
  c == ' ' || c == '\t' || c == '\r' || c == '\n'

/-- The token that the next character may still extend, with the position where it starts and
the characters read so far. -/
inductive Unfinished
  /-- The last token is complete. -/
  | nothing
  /-- A keyword or name. -/
  | word (start : Nat) (lexeme : String)
  /-- A run of digits. -/
  | number (start : Nat) (lexeme : String)
  /-- A text whose closing quote has not been read; the opening quote is at `start`. -/
  | quoted (start : Nat) (lexeme : String)
deriving DecidableEq, Repr

/-- What a scanner knows after the characters read so far. -/
structure Scanner where
  /-- How many characters have been read. -/
  position : Nat
  /-- The complete tokens. -/
  tokens : Array Token
  /-- The token being read. -/
  unfinished : Unfinished
deriving DecidableEq, Repr

/-- The tokens of a source text.  The last one is the end of the source. -/
structure Scan where
  /-- The tokens in the order of the source. -/
  tokens : List Token
  /-- The position of an opening quote that no closing quote follows. -/
  openQuote : Option Nat
deriving DecidableEq, Repr

namespace Scanner

/-- The state before the first character. -/
def initial : Scanner :=
  ⟨0, #[], .nothing⟩

/-- The scanner with one more token, which starts at `start` and ends before `stop`. -/
def push (scanner : Scanner) (kind : TokenKind) (lexeme : String) (start stop : Nat) : Scanner :=
  { scanner with tokens := scanner.tokens.push ⟨kind, lexeme, ⟨start, stop⟩⟩ }

/-- The scanner with its unfinished token completed before the current position. -/
def complete (scanner : Scanner) : Scanner :=
  let stop := scanner.position
  let rest := { scanner with unfinished := .nothing }
  match scanner.unfinished with
  | .nothing => scanner
  | .word start lexeme => rest.push (TokenKind.ofWord lexeme) lexeme start stop
  | .number start lexeme => rest.push .number lexeme start stop
  | .quoted start lexeme => rest.push .text lexeme start stop

/-- The scanner after one more character, with the given token unfinished. -/
def advance (scanner : Scanner) (unfinished : Unfinished) : Scanner :=
  { scanner with position := scanner.position + 1, unfinished := unfinished }

/-- Reads a character that starts a token or stands between two. -/
def start (scanner : Scanner) (c : Char) : Except Fault Scanner :=
  let here := scanner.position
  match TokenKind.ofSign? c with
  | some sign =>
    .ok ((scanner.push sign (String.singleton c) here (here + 1)).advance .nothing)
  | none =>
    if isSeparator c then .ok (scanner.advance .nothing)
    else if c = '"' then .ok (scanner.advance (.quoted here ""))
    else if c.isDigit then .ok (scanner.advance (.number here (String.singleton c)))
    else if isWordStart c then .ok (scanner.advance (.word here (String.singleton c)))
    else .error (.unknownCharacter c here)

/-- Reads one character. -/
def step (scanner : Scanner) (c : Char) : Except Fault Scanner :=
  match scanner.unfinished with
  | .quoted start lexeme =>
    if c = '"' then
      .ok ((scanner.push .text lexeme start (scanner.position + 1)).advance .nothing)
    else
      .ok (scanner.advance (.quoted start (lexeme.push c)))
  | .word start lexeme =>
    if isWordPart c then .ok (scanner.advance (.word start (lexeme.push c)))
    else scanner.complete.start c
  | .number start lexeme =>
    if c.isDigit then .ok (scanner.advance (.number start (lexeme.push c)))
    else scanner.complete.start c
  | .nothing => scanner.start c

/-- Reads characters in order, up to the first fault. -/
def feed (scanner : Scanner) : List Char → Except Fault Scanner
  | [] => .ok scanner
  | c :: rest =>
    match scanner.step c with
    | .ok next => next.feed rest
    | .error fault => .error fault

/-- The position of the opening quote of an unfinished text. -/
def openQuote (scanner : Scanner) : Option Nat :=
  match scanner.unfinished with
  | .quoted start _ => some start
  | _ => none

/-- The tokens of a source that ends here. -/
def finish (scanner : Scanner) : Scan where
  tokens :=
    (scanner.complete.tokens.push ⟨.endOfInput, "", .atEnd scanner.position⟩).toList
  openQuote := scanner.openQuote

/-! ### Reading in two parts -/

/-- Reading a text and then another is reading them joined. -/
theorem feed_append (scanner : Scanner) (first second : List Char) :
    scanner.feed (first ++ second) =
      match scanner.feed first with
      | .ok next => next.feed second
      | .error fault => .error fault := by
  induction first generalizing scanner with
  | nil => rfl
  | cons c rest ih =>
    simp only [List.cons_append, feed]
    cases scanner.step c with
    | ok next => exact ih next
    | error fault => rfl

end Scanner

namespace Token

/-- The tokens of a source text, or the first character that starts none. -/
def scan (source : String) : Except Fault Scan :=
  (Scanner.initial.feed source.toList).map Scanner.finish

end Token

end PrintLang
