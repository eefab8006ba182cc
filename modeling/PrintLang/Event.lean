import PrintLang.Value

/-!
# Events

Beside its output a program leaves a log of events, from warnings down to the trace of every
binding.

## Main Definitions

* `Level` — how important an event is
* `Event` — what can be logged
* `Event.line` — the line of a log that shows an event
-/

namespace PrintLang

/-- The levels of events, from the most important one on. -/
inductive Level
  | warn
  | info
  | debug
  | trace
deriving DecidableEq, Repr

namespace Level

/-- The name of a level in logs. -/
def title : Level → String
  | warn => "WARN"
  | info => "INFO"
  | debug => "DEBUG"
  | trace => "TRACE"

/-- The number of levels above this one. -/
def depth : Level → Nat
  | warn => 0
  | info => 1
  | debug => 2
  | trace => 3

/-- The level that shows events down to the given depth. -/
def ofDepth : Nat → Level
  | 0 => warn
  | 1 => info
  | 2 => debug
  | _ => trace

end Level

/-- What can be logged. -/
inductive Event
  /-- A text in quotes runs to the end of the source; its quote is at `start`. -/
  | openQuote (start : Nat)
  /-- A script was read from a file. -/
  | loaded (file : String) (bytes : Nat)
  /-- A script was scanned. -/
  | scanned (tokens : Nat)
  /-- A script was parsed. -/
  | parsed (statements : Nat)
  /-- A line was parsed. -/
  | parsedLine (statements : Nat)
  /-- A name was bound. -/
  | bound (name : String) (value : Value)
  /-- A script ran to its end. -/
  | finished (bindings : Nat)
deriving DecidableEq

namespace Event

/-- The level of an event. -/
def level : Event → Level
  | openQuote _ => .warn
  | loaded .. => .info
  | scanned _ | parsed _ | parsedLine _ | finished _ => .debug
  | bound .. => .trace

/-- What an event says. -/
def message : Event → String
  | openQuote _ => "unterminated string literal runs to end of input"
  | loaded .. => "loaded script"
  | scanned _ => "lexed source"
  | parsed _ => "parsed program"
  | parsedLine _ => "parsed repl line"
  | bound .. => "bound variable"
  | finished _ => "program finished"

/-- The value of a field of an event. -/
inductive Field
  | count (n : Nat)
  | text (s : String)

/-- The text of the value of a field. -/
def Field.display : Field → String
  | count n => toString n
  | text s => s

/-- The fields of an event, each with its name. -/
def fields : Event → List (String × Field)
  | openQuote start => [("start", .count start)]
  | loaded file bytes => [("file", .text file), ("bytes", .count bytes)]
  | scanned tokens => [("tokens", .count tokens)]
  | parsed statements => [("statements", .count statements)]
  | parsedLine statements => [("statements", .count statements)]
  | bound name value => [("name", .text name), ("value", .text value.display)]
  | finished bindings => [("bindings", .count bindings)]

/-- The level and the message of an event, followed by its fields. -/
def line (event : Event) : String :=
  event.fields.foldl
    (fun line (name, field) => line ++ " " ++ name ++ "=" ++ field.display)
    (event.level.title ++ " " ++ event.message)

/-- Whether a log down to the given level shows the event. -/
def isShown (event : Event) (down : Level) : Bool :=
  event.level.depth ≤ down.depth

end Event

end PrintLang
