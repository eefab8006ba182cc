import PrintLang.Console
import PrintLang.Text.Blank
import PrintLang.CommandLine.Usage

/-!
# Dialogues

In a dialogue every line of the input is run as a complete program, and names stay bound from
line to line.  The dialogue ends with the input, with a line that says so, or with a line that
is no text.

## Main Definitions

* `Dialogue.banner`, `Dialogue.prompt` — what is written before the dialogue and each line
* `Dialogue.answer` — the answer to one line, and whether the dialogue goes on
* `Dialogue.converse` — the answers to all lines
-/

namespace PrintLang

namespace Dialogue

/-- What is written before a dialogue. -/
def banner : String :=
  "Quill Interpreter v" ++ Usage.versionNumber ++ "\nType 'exit' or press Ctrl+D to quit\n\n"

/-- What is written before a line is read. -/
def prompt : String := "> "

/-- Whether a line ends the dialogue. -/
def isFarewell (line : String) : Bool :=
  line == "exit" || line == "quit"

/-- Answers one line, and says whether the dialogue goes on. -/
def answer (console : Console) (bytes : ByteArray) : Console × Bool :=
  match String.fromUTF8? bytes with
  | none =>
    (console.note (.line "Error reading input: stream did not contain valid UTF-8"), false)
  | some text =>
    let line := trim text
    if line.isEmpty then (console, true)
    else if isFarewell line then (console.print "Goodbye!\n", false)
    else (console.runLine line none, true)

/-- Answers lines in order, with a prompt before each, until one ends the dialogue.  At the end
of the input the line of the last prompt is closed. -/
def converse (console : Console) : List ByteArray → Console
  | [] => (console.print prompt).print "\n"
  | bytes :: rest =>
    match answer (console.print prompt) bytes with
    | (next, true) => converse next rest
    | (next, false) => next

end Dialogue

end PrintLang
