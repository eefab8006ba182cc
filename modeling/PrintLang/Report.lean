import PrintLang.Fault
import PrintLang.Text.Lines

/-!
# Reports

A report shows a fault to the writer of the program: the stage and the message, the line and
column where it was found, the line itself with the place marked, and advice.

## Main Definitions

* `Report` — what is shown
* `Report.ofFault` — the report of a fault in a source text
* `Report.draw` — the line of the source with the place marked
* `Report.lines` — the lines of a report on a terminal

## Design Notes

The drawing counts on every character being one column wide and on the place lying inside one
line.  Where that does not hold, the report has no drawing.
-/

namespace PrintLang

/-- What is shown of a fault. -/
structure Report where
  /-- The stage in which the fault was found. -/
  stage : Stage
  /-- What is wrong. -/
  message : String
  /-- The name of the source. -/
  file : String
  /-- Where the fault was found. -/
  location : Location
  /-- Advice for the writer. -/
  note : Option String
  /-- The rows that mark the place in its line. -/
  drawing : Option (List String)
deriving DecidableEq, Repr

namespace Report

/-- The text `piece` repeated. -/
def repeated (piece : String) (count : Nat) : String :=
  String.join (List.replicate count piece)

/-- A text without the spaces at its end. -/
def trimEnd (chars : List Char) : List Char :=
  (chars.reverse.dropWhile (· = ' ')).reverse

/-- Whether a character is printable and in the ASCII range. -/
def isPrintable (c : Char) : Bool :=
  32 ≤ c.toNat && c.toNat ≤ 126

/-- Whether a source consists of printable ASCII characters and line feeds. -/
def isPlain (source : String) : Bool :=
  source.toList.all fun c => c == '\n' || isPrintable c

/-- Whether a span is a range of at least one character of a source, all in one line. -/
def InOneLine (source : String) (span : Span) : Prop :=
  span.start < span.stop ∧ span.stop ≤ source.toList.length ∧
    '\n' ∉ (source.toList.drop span.start).take (span.stop - span.start)

instance (source : String) (span : Span) : Decidable (InOneLine source span) := by
  unfold InOneLine
  infer_instance

/-- The margin on the left of rows that show no line of the source, as wide as a line number
of the given width. -/
def margin (width : Nat) : String :=
  " " ++ repeated " " width ++ " │"

/-- The advice as a note. -/
def noteOf (help : String) : String :=
  "help: " ++ help

/-- The rows of a drawing: the line, a rule under the marked characters with a tick in their
middle, the message at the end of a hook from the tick, and the note. -/
def drawingRows (line : Nat) (text : List Char) (column length : Nat) (message : String)
    (note : Option String) : List String :=
  let number := toString line
  let gap := margin number.length
  let half := length / 2
  let noteRows :=
    match note with
    | some note => [gap, gap ++ " Note: " ++ note]
    | none => []
  [gap,
    " " ++ number ++ " │ " ++ String.ofList text,
    gap ++ " " ++ repeated " " column ++ repeated "─" half ++ "┬"
      ++ repeated "─" (length - half - 1),
    gap ++ " " ++ repeated " " (column + half) ++ "╰" ++ repeated "─" (length - half + 1)
      ++ " " ++ message]
    ++ noteRows

/-- The drawing of a fault, if the source is plain, the place lies inside one line and the
message is one line. -/
def draw (source : String) (location : Location) (fault : Fault) : Option (List String) :=
  if isPlain source ∧ InOneLine source fault.span ∧ '\n' ∉ fault.message.toList then
    let rows := drawingRows location.line (lineAt source fault.span.start) (location.column - 1)
      (fault.span.stop - fault.span.start) fault.message (fault.help.map noteOf)
    some (rows.map fun row => String.ofList (trimEnd row.toList))
  else
    none

/-- The name of a source that was typed in. -/
def dialogueName : String :=
  "<repl>"

/-- The report of a fault in a source text, which is called `file`. -/
def ofFault (source : String) (file : Option String) (fault : Fault) : Report :=
  let location := locate source fault.span.start
  { stage := fault.cause.stage
    message := fault.message
    file := file.getD dialogueName
    location := location
    note := fault.help.map noteOf
    drawing := draw source location fault }

/-- The first line of a report. -/
def header (report : Report) : String :=
  "Error: " ++ report.stage.title ++ ": " ++ report.message

/-- The name of the source with line and column. -/
def locationText (report : Report) : String :=
  report.file ++ ":" ++ toString report.location.line ++ ":" ++ toString report.location.column

/-- A text in a terminal color. -/
def colored (color text : String) : String :=
  "\x1b[" ++ color ++ "m" ++ text ++ "\x1b[0m"

/-- The lines of a report on a terminal: the header, a frame around the drawing with the place
in its upper edge, and the note if there is no drawing to hold it. -/
def lines (report : Report) : List String :=
  let width := (toString report.location.line).length
  let bottom := repeated "─" (width + 2) ++ "╯"
  let rows :=
    match report.drawing with
    | some rows => rows
    | none =>
      match report.note with
      | some note => [margin width, margin width ++ " Note: " ++ note]
      | none => [margin width]
  [colored "31" "Error:" ++ " " ++ colored report.stage.color report.stage.title ++ ": "
      ++ report.message,
    " " ++ repeated " " width ++ " ╭─[" ++ report.locationText ++ "]"]
    ++ rows ++ [bottom]

end Report

end PrintLang
