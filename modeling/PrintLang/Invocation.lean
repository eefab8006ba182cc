import PrintLang.Dialogue
import PrintLang.Script

/-!
# Invocations

An invocation is one run of the program from its command line: it runs a script, or holds a
dialogue, or does the one after the other.

## Main Definitions

* `ReadFailure` — why a file cannot be read
* `Invocation` — what the caller sees of a run
* `Request.begin` — everything before a dialogue, which may be all
* `Invocation.run` — a whole run
-/

namespace PrintLang

/-- Why a file cannot be read. -/
inductive ReadFailure
  /-- There is no such file. -/
  | missing
  /-- It is a directory. -/
  | directory
  /-- A directory on the way to it is none. -/
  | notDirectory
  /-- Its content is no text. -/
  | notText
  /-- The system gives a reason of its own. -/
  | other (reason : String)
deriving DecidableEq, Repr

/-- The reason that is shown for a failure. -/
def ReadFailure.reason : ReadFailure → String
  | missing => "No such file or directory (os error 2)"
  | directory => "Is a directory (os error 21)"
  | notDirectory => "Not a directory (os error 20)"
  | notText => "stream did not contain valid UTF-8"
  | other reason => reason

/-- What the caller sees of a run. -/
structure Invocation where
  /-- The exit status. -/
  status : Nat
  /-- What was written to the output. -/
  output : ByteArray
  /-- What was shown beside the output. -/
  notices : List Notice

/-- The first part of a run. -/
inductive Beginning
  /-- A dialogue follows. -/
  | dialogue (console : Console)
  /-- Nothing follows. -/
  | complete (status : Nat) (console : Console)

namespace Request

/-- The listings that a request asks for. -/
def dump (request : Request) : Dump :=
  ⟨request.tokens, request.statements⟩

/-- The level that the log of a request goes down to. -/
def level (request : Request) : Level :=
  .ofDepth request.verbosity

/-- The text of a file that has been read. -/
def textOf (content : Except ReadFailure ByteArray) : Except ReadFailure String :=
  match content with
  | .error failure => .error failure
  | .ok bytes =>
    match String.fromUTF8? bytes with
    | some text => .ok text
    | none => .error .notText

/-- What is shown if a file cannot be read. -/
def failureLine (file : String) (failure : ReadFailure) : String :=
  "Error reading file '" ++ file ++ "': " ++ failure.reason

/-- Runs a script that has been loaded on an otherwise unused console. -/
def runScript (request : Request) (file source : String) (console : Console) : Beginning :=
  let outcome := Script.run request.dump source console.sink
  .complete (if outcome.fault.isSome then 1 else 0) (console.finish source (some file) outcome)

/-- The first part of a run: everything before a dialogue.  The file is read by `read`.  In
front of a dialogue the script is run like a line of it, and without listings. -/
def begin (request : Request) (read : String → Except ReadFailure ByteArray) : Beginning :=
  match request.file with
  | none => .dialogue .initial
  | some file =>
    match textOf (read file) with
    | .error failure => .complete 1 (Console.initial.note (.line (failureLine file failure)))
    | .ok source =>
      let console := Console.initial.note (.event (.loaded file source.utf8ByteSize))
      if request.interactive then .dialogue (console.runLine source (some file))
      else request.runScript file source console

end Request

namespace Invocation

/-- A run that ended with a console; notices above the level of the log are not shown. -/
def ofConsole (status : Nat) (level : Level) (console : Console) : Invocation :=
  ⟨status, console.output, console.notices.toList.filter (Notice.isShown level)⟩

/-- A run that only answers its command line. -/
def ofEnding : Ending → Invocation
  | .help => ⟨0, Usage.help.toUTF8, []⟩
  | .version => ⟨0, Usage.version.toUTF8, []⟩
  | .misuse misuse => ⟨2, ByteArray.empty, misuse.lines.map Notice.line⟩

/-- A run for a request, with `input` as the whole input. -/
def ofRequest (request : Request) (read : String → Except ReadFailure ByteArray)
    (input : ByteArray) : Invocation :=
  match request.begin read with
  | .complete status console => ofConsole status request.level console
  | .dialogue console =>
    ofConsole 0 request.level
      (Dialogue.converse (console.print Dialogue.banner) (splitAfterLineFeeds input))

/-- A whole run from its command line. -/
def run (arguments : List String) (read : String → Except ReadFailure ByteArray)
    (input : ByteArray) : Invocation :=
  match Request.ofArguments arguments with
  | .ok request => ofRequest request read input
  | .error ending => ofEnding ending

end Invocation

end PrintLang
