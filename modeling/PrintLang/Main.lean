import PrintLang.Invocation

/-!
# The program

The outer layer of the program: it reads the command line, files and lines, and writes what a
console shows.  Everything that is decided is decided by `Request.ofArguments`, `Request.begin`
and `Dialogue.answer`.
-/

namespace PrintLang

/-- Writes what a console shows, and returns the console with nothing left to show. -/
def Console.flush (console : Console) (level : Level) : IO Console := do
  let output ← IO.getStdout
  output.write console.output
  output.flush
  for notice in console.notices do
    if notice.isShown level then
      match notice with
      | .event event => IO.eprintln event.line
      | .report report => report.lines.forM IO.eprintln
      | .line text => IO.eprintln text
  return { console with output := ByteArray.empty, notices := #[] }

/-- The next bytes of the input up to a line feed or the end. -/
partial def readLine (input : IO.FS.Stream) (line : ByteArray) : IO ByteArray := do
  let byte ← input.read 1
  if byte.isEmpty then return line
  let line := line ++ byte
  if byte.data.contains 10 then return line
  readLine input line

/-- Holds a dialogue on the standard input. -/
partial def converse (level : Level) (input : IO.FS.Stream) (console : Console) : IO Unit := do
  let console ← (console.print Dialogue.prompt).flush level
  let line ← readLine input ByteArray.empty
  if line.isEmpty then
    discard <| (console.print "\n").flush level
  else
    let (console, goesOn) := Dialogue.answer console line
    let console ← console.flush level
    if goesOn then converse level input console

/-- The reason why a file could not be read. -/
def ReadFailure.ofError (error : IO.Error) : ReadFailure :=
  match error with
  | .noFileOrDirectory .. => .missing
  | .inappropriateType _ 20 _ => .notDirectory
  | .inappropriateType _ 21 _ => .directory
  | error => .other (toString error)

/-- The content of a file. -/
def readContent (file : String) : IO (Except ReadFailure ByteArray) := do
  try
    return .ok (← IO.FS.readBinFile file)
  catch error =>
    return .error (.ofError error)

/-- Carries out a request and returns the exit status. -/
def Request.carryOut (request : Request) : IO UInt32 := do
  let content ← match request.file with
    | some file => readContent file
    | none => pure (.error .missing)
  match request.begin fun _ => content with
  | .complete status console =>
    discard <| console.flush request.level
    return UInt32.ofNat status
  | .dialogue console =>
    let console ← (console.print Dialogue.banner).flush request.level
    converse request.level (← IO.getStdin) console
    return 0

end PrintLang

open PrintLang in
/-- Runs the program. -/
def main (arguments : List String) : IO UInt32 := do
  match Request.ofArguments arguments with
  | .ok request => request.carryOut
  | .error ending =>
    let answer := Invocation.ofEnding ending
    discard <| Console.flush ⟨.empty, answer.output, answer.notices.toArray⟩ .warn
    return UInt32.ofNat answer.status
