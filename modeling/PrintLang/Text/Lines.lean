/-!
# Lines and columns

A line of a source text ends after a line feed, a carriage return, the two of them in this
order, or one of five further characters.  Lines and columns are counted from one, and columns
count characters.

## Main Definitions

* `endsLine` — whether a line ends after a character, given those that follow it
* `Location`, `locate` — the line and column of a position
* `lineAt` — the text of the line around a position
* `splitAfterLineFeeds` — the lines of a stream of bytes, which end after line feeds only
-/

namespace PrintLang

/-- Whether a line ends after `c`, which the characters `rest` follow.  The carriage return of
a pair belongs to the line that its line feed ends. -/
def endsLine (c : Char) (rest : List Char) : Bool :=
  match c with
  | '\r' => rest.head? != some '\n'
  | '\n' => true
  | '\x0b' => true
  | '\x0c' => true
  | '\u0085' => true
  | '\u2028' => true
  | '\u2029' => true
  | _ => false

/-- A place in a text, counted from line 1 and column 1. -/
structure Location where
  /-- The number of the line. -/
  line : Nat
  /-- The number of the character in the line. -/
  column : Nat
deriving DecidableEq, Repr

namespace Location

/-- The first place of a text. -/
def first : Location :=
  ⟨1, 1⟩

/-- The place after `count` more characters of a text that starts here.  A new line starts only
if something follows: the place at the end of the text is in its last line. -/
def after (here : Location) : List Char → Nat → Location
  | _, 0 => here
  | [], _ + 1 => here
  | c :: rest, count + 1 =>
    if endsLine c rest && !rest.isEmpty then after ⟨here.line + 1, 1⟩ rest count
    else after ⟨here.line, here.column + 1⟩ rest count

end Location

/-- The line and column of a position of the source. -/
def locate (source : String) (position : Nat) : Location :=
  Location.first.after source.toList position

/-- The characters of the line around a position, if line feeds alone end lines. -/
def lineAt (source : String) (position : Nat) : List Char :=
  let chars := source.toList
  ((chars.take position).reverse.takeWhile (· ≠ '\n')).reverse
    ++ (chars.drop position).takeWhile (· ≠ '\n')

/-- The bytes cut after every line feed, the last piece being what follows the last one,
unless that is nothing. -/
def splitAfterLineFeeds (bytes : ByteArray) : List ByteArray :=
  let (lines, last) := bytes.data.toList.foldl
    (fun (lines, line) byte =>
      if byte = 10 then (lines.push (line.push byte), ByteArray.empty)
      else (lines, line.push byte))
    (#[], ByteArray.empty)
  (if last.isEmpty then lines else lines.push last).toList

end PrintLang
