import PrintLang.Session
import PrintLang.Report

/-!
# Consoles

A console is the state of a run of the program as its user sees it: what was written to the
output, and the notices beside it.

## Main Definitions

* `Notice` — an event, a report or a plain line
* `Console` — the environment, the output and the notices
* `Console.finish` — the console after a piece of work
-/

namespace PrintLang

/-- What is shown beside the output. -/
inductive Notice
  | event (event : Event)
  | report (report : Report)
  | line (text : String)

/-- Whether a notice is shown if the log goes down to the given level. -/
def Notice.isShown (down : Level) : Notice → Bool
  | event logged => logged.isShown down
  | report _ => true
  | line _ => true

/-- The state of a run of the program as its user sees it. -/
structure Console where
  /-- The names bound so far. -/
  environment : Environment
  /-- The output so far. -/
  output : ByteArray
  /-- The notices so far. -/
  notices : Array Notice

namespace Console

/-- A console that shows nothing yet. -/
def initial : Console :=
  ⟨.empty, ByteArray.empty, #[]⟩

/-- The console with a text added to its output. -/
def print (console : Console) (text : String) : Console :=
  { console with output := console.output ++ text.toUTF8 }

/-- The console with one more notice. -/
def note (console : Console) (notice : Notice) : Console :=
  { console with notices := console.notices.push notice }

/-- The sink that writes to the output, without a limit. -/
def sink (console : Console) : Sink :=
  ⟨console.output, none, 0⟩

/-- A session with the environment and the output of the console. -/
def session (console : Console) : Session :=
  ⟨console.environment, console.sink, #[]⟩

/-- The console after work on a source text: the events of the work are noted, and then the
report of the fault that stopped it. -/
def finish (console : Console) (source : String) (file : Option String) (outcome : Outcome) :
    Console :=
  let events := outcome.session.log.map Notice.event
  let reports := (outcome.fault.map fun fault =>
    Notice.report (Report.ofFault source file fault)).toArray
  { environment := outcome.session.environment
    output := outcome.session.sink.written
    notices := console.notices ++ events ++ reports }

/-- The console after a text was run as a complete program. -/
def runLine (console : Console) (source : String) (file : Option String) : Console :=
  console.finish source file (console.session.runLine source)

end Console

end PrintLang
