/-!
# Sinks

A sink takes what a program writes, line by line.  It may be limited to a number of bytes; then
it takes as much of a line as still fits and refuses the rest.

## Main Definitions

* `Sink` — the bytes written so far, an optional limit, and how often a line was refused
* `Sink.write` — the sink after a line, and the reason if it was not taken as a whole
-/

namespace PrintLang

/-- How a sink that is full refuses to take more. -/
inductive Refusal
  /-- It reports that it is closed. -/
  | closed
  /-- It takes nothing, without a report of its own. -/
  | nothing
deriving DecidableEq, Repr

/-- The reason that a refusal gives. -/
def Refusal.reason : Refusal → String
  | closed => "sink closed"
  | nothing => "failed to write whole buffer"

/-- The number of bytes that a sink takes in all, and what it does after that. -/
structure Limit where
  /-- The number of bytes that the sink takes. -/
  size : Nat
  /-- How it refuses more. -/
  refusal : Refusal
deriving DecidableEq, Repr

/-- What has been written. -/
structure Sink where
  /-- The bytes taken so far. -/
  written : ByteArray
  /-- The limit, if there is one. -/
  limit : Option Limit
  /-- The number of lines that were not taken as a whole. -/
  refused : Nat

namespace Sink

/-- A sink that nothing has been written to. -/
def empty (limit : Option Limit) : Sink :=
  ⟨ByteArray.empty, limit, 0⟩

/-- The bytes of a line, which ends with a line feed. -/
def lineBytes (line : String) : ByteArray :=
  (line ++ "\n").toUTF8

/-- Writes a line.  If it does not fit as a whole, its first bytes are taken up to the limit,
and the rest is refused once. -/
def write (sink : Sink) (line : String) : Sink × Option Refusal :=
  let bytes := lineBytes line
  match sink.limit with
  | none => ({ sink with written := sink.written ++ bytes }, none)
  | some limit =>
    let room := limit.size - sink.written.size
    if bytes.size ≤ room then
      ({ sink with written := sink.written ++ bytes }, none)
    else
      ({ sink with
          written := sink.written ++ bytes.extract 0 room
          refused := sink.refused + 1 },
        some limit.refusal)

/-! ### What is taken -/

/-- A sink without a limit takes every line. -/
theorem write_of_limit_eq_none (sink : Sink) (line : String) (h : sink.limit = none) :
    sink.write line = ({ sink with written := sink.written ++ lineBytes line }, none) := by
  simp [write, h]

/-- Writing does not change the limit. -/
@[simp] theorem limit_write (sink : Sink) (line : String) :
    (sink.write line).1.limit = sink.limit := by
  simp only [write]
  split
  · rfl
  · split <;> rfl

end Sink

end PrintLang
