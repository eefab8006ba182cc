import PrintLang.Token.Scanner
import PrintLang.Grammar.Reader
import PrintLang.Evaluation
import PrintLang.Sink
import PrintLang.Event

/-!
# Sessions

A session is the state that statements act on: the environment, what has been written, and the
log.  Statements run in order up to the first fault, and what they did before it stays.

## Main Definitions

* `Session` — environment, sink and log
* `Outcome` — the session after some work, with the fault that stopped it
* `Session.execute`, `Session.interpret` — running a statement and a list of them
* `Session.runLine` — running a text as a complete program

## Design Notes

A binding comes before its echo, so a name stays bound if its echo is refused.  A text that
cannot be read as a program changes nothing but the log.
-/

namespace PrintLang

/-- The state that statements act on. -/
structure Session where
  /-- The names bound so far. -/
  environment : Environment
  /-- Where statements write to. -/
  sink : Sink
  /-- The events so far. -/
  log : Array Event

/-- The session after some work.  If a fault stopped the work, it is kept. -/
structure Outcome where
  /-- The session, as far as the work was done. -/
  session : Session
  /-- What stopped the work. -/
  fault : Option Fault

namespace Outcome

/-- The outcome of going on with `next`, unless a fault stopped the work before. -/
@[inline] def andThen (outcome : Outcome) (next : Session → Outcome) : Outcome :=
  match outcome.fault with
  | none => next outcome.session
  | some _ => outcome

@[simp] theorem andThen_done (session : Session) (next : Session → Outcome) :
    (Outcome.mk session none).andThen next = next session := rfl

@[simp] theorem andThen_stopped (session : Session) (fault : Fault)
    (next : Session → Outcome) :
    (Outcome.mk session (some fault)).andThen next = ⟨session, some fault⟩ := rfl

theorem andThen_assoc (outcome : Outcome) (first second : Session → Outcome) :
    (outcome.andThen first).andThen second =
      outcome.andThen fun session => (first session).andThen second := by
  obtain ⟨session, fault⟩ := outcome
  cases fault <;> rfl

end Outcome

namespace Session

/-- A session that starts with a sink and nothing else. -/
def fresh (sink : Sink) : Session :=
  ⟨.empty, sink, #[]⟩

/-- The session with one more event in its log. -/
def record (session : Session) (event : Event) : Session :=
  { session with log := session.log.push event }

/-- The session with a name bound, which is logged first. -/
def bind (session : Session) (name : String) (value : Value) : Session :=
  { session.record (.bound name value) with
    environment := session.environment.bind name value }

/-- Writes a line on behalf of the text at a span. -/
def emit (session : Session) (span : Span) (line : String) : Outcome :=
  match session.sink.write line with
  | (sink, none) => ⟨{ session with sink := sink }, none⟩
  | (sink, some refusal) =>
    ⟨{ session with sink := sink }, some (.outputRefused span refusal.reason)⟩

/-- Writes lines in order on behalf of the text at a span. -/
def emitAll (session : Session) (span : Span) : List String → Outcome
  | [] => ⟨session, none⟩
  | line :: rest => (session.emit span line).andThen fun next => next.emitAll span rest

/-- Runs one statement.  An assignment echoes the name with its value, a print statement
writes the value, and an expression is only evaluated. -/
def execute (session : Session) (statement : Tree) : Outcome :=
  match statement with
  | .assign name value span =>
    match value.evaluate session.environment with
    | .ok value => (session.bind name value).emit span (name ++ " = " ++ value.display)
    | .error fault => ⟨session, some fault⟩
  | .print value span =>
    match value.evaluate session.environment with
    | .ok value => session.emit span value.display
    | .error fault => ⟨session, some fault⟩
  | expression =>
    match expression.evaluate session.environment with
    | .ok _ => ⟨session, none⟩
    | .error fault => ⟨session, some fault⟩

/-- Runs statements in order, up to the first fault. -/
def interpret (session : Session) : List Tree → Outcome
  | [] => ⟨session, none⟩
  | statement :: rest => (session.execute statement).andThen fun next => next.interpret rest

/-- The session after a scan, with a warning about a quote that is never closed. -/
def noteOpenQuote (session : Session) (scan : Scan) : Session :=
  match scan.openQuote with
  | some start => session.record (.openQuote start)
  | none => session

/-- Runs a text as a complete program. -/
def runLine (session : Session) (source : String) : Outcome :=
  match Token.scan source with
  | .error fault => ⟨session, some fault⟩
  | .ok scan =>
    let session := session.noteOpenQuote scan
    match Tree.ofTokens scan.tokens with
    | .error fault => ⟨session, some fault⟩
    | .ok statements =>
      (session.record (.parsedLine statements.length)).interpret statements

/-! ### Running in two parts -/

@[simp] theorem interpret_nil (session : Session) : session.interpret [] = ⟨session, none⟩ := rfl

theorem interpret_cons (session : Session) (statement : Tree) (rest : List Tree) :
    session.interpret (statement :: rest) =
      (session.execute statement).andThen fun next => next.interpret rest := rfl

/-- Running statements and then others is running them joined. -/
theorem interpret_append (session : Session) (first second : List Tree) :
    session.interpret (first ++ second) =
      (session.interpret first).andThen fun next => next.interpret second := by
  induction first generalizing session with
  | nil => rfl
  | cons statement rest ih =>
    rw [List.cons_append, interpret_cons, interpret_cons, Outcome.andThen_assoc]
    congr 1
    funext next
    exact ih next

end Session

end PrintLang
