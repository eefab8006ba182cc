import PrintLang.Session

/-!
# Execution

Every statement evaluates one expression and then acts on its value.  The two parts are taken
apart here, so that a property of all statements is shown once for the evaluation and once for
the actions.

The first such property is that the log is only written.  Of the events, a run records nothing
but bindings, so what a session has logged otherwise can be left out without a trace.  More
generally, work can be compared with the events of one kind left out, as long as what is left out
is known of every event that the work records.

## Main Definitions

* `Tree.subject`, `Session.act` — the expression of a statement, and what is done with its value
* `Session.withValue` — going on with a value, if there is one
* `Session.keep`, `Keeps` — a session with some of its events, and work up to the other events
* `Session.trace`, `Session.traced` — the bindings in the log, and a session with no others

## Main Statements

* `Session.execute_eq` — a statement is run by evaluating and acting
* `Keeps.interpret` — events that are no bindings have no influence
-/

namespace PrintLang

/-- The expression that a statement evaluates. -/
def Tree.subject : Tree → Tree
  | assign _ value _ => value
  | print value _ => value
  | expression => expression

namespace Session

/-- Goes on with the value of a tree.  If it has none, the session stays as it is. -/
def withValue (session : Session) (tree : Tree) (next : Value → Outcome) : Outcome :=
  match tree.evaluate session.environment with
  | .ok value => next value
  | .error fault => ⟨session, some fault⟩

/-- What a statement does with the value of its expression. -/
def act (session : Session) (statement : Tree) (value : Value) : Outcome :=
  match statement with
  | .assign name _ span => (session.bind name value).emit span (name ++ " = " ++ value.display)
  | .print _ span => session.emit span value.display
  | _ => ⟨session, none⟩

/-- A statement evaluates its expression and acts on the value. -/
theorem execute_eq (session : Session) (statement : Tree) :
    session.execute statement = session.withValue statement.subject (session.act statement) := by
  cases statement <;> rfl

end Session

/-! ## Events that are left out -/

/-- The session with some of the events in its log. -/
def Session.keep (kept : Event → Bool) (session : Session) : Session :=
  { session with log := session.log.filter kept }

/-- The outcome with some of the events in its log. -/
def Outcome.keep (kept : Event → Bool) (outcome : Outcome) : Outcome :=
  { outcome with session := outcome.session.keep kept }

/-- But for the events that are not kept, one piece of work is another one. -/
def Keeps (kept : Event → Bool) (work other : Session → Outcome) : Prop :=
  ∀ session, (work session).keep kept = other (session.keep kept)

namespace Session

variable {kept : Event → Bool}

theorem keep_keep (session : Session) : (session.keep kept).keep kept = session.keep kept := by
  simp [keep]

theorem keep_record {event : Event} (isKept : kept event = true) (session : Session) :
    (session.record event).keep kept = (session.keep kept).record event := by
  simp [keep, record, isKept]

theorem keep_record_of_not {event : Event} (notKept : kept event = false) (session : Session) :
    (session.record event).keep kept = session.keep kept := by
  simp [keep, record, notKept]

theorem keep_bind {name : String} {value : Value} (isKept : kept (.bound name value) = true)
    (session : Session) :
    (session.bind name value).keep kept = (session.keep kept).bind name value := by
  simp [keep, bind, record, isKept]

end Session

namespace Keeps

variable {kept : Event → Bool} {work other next otherNext : Session → Outcome}

theorem andThen (first : Keeps kept work other) (second : Keeps kept next otherNext) :
    Keeps kept (fun session => (work session).andThen next)
      (fun session => (other session).andThen otherNext) := by
  intro session
  dsimp only
  rw [← first session]
  rcases work session with ⟨after, fault⟩
  cases fault with
  | none => exact second after
  | some fault => rfl

/-- An event is recorded on both sides. -/
theorem record (event : Session → Event) (isKept : ∀ session, kept (event session) = true)
    (same : ∀ session, event (session.keep kept) = event session)
    (goesOn : Keeps kept work other) :
    Keeps kept (fun session => work (session.record (event session)))
      (fun session => other (session.record (event session))) := by
  intro session
  dsimp only
  rw [goesOn, Session.keep_record (isKept session), same]

/-- An event that is not kept is recorded on one side only. -/
theorem record_of_not (event : Session → Event) (notKept : ∀ session, kept (event session) = false)
    (goesOn : Keeps kept work other) :
    Keeps kept (fun session => work (session.record (event session))) other := by
  intro session
  dsimp only
  rw [goesOn, Session.keep_record_of_not (notKept session)]

theorem done : Keeps kept (fun session => ⟨session, none⟩) (fun session => ⟨session, none⟩) :=
  fun _ => rfl

theorem stopped (fault : Fault) :
    Keeps kept (fun session => ⟨session, some fault⟩) (fun session => ⟨session, some fault⟩) :=
  fun _ => rfl

theorem emit (span : Span) (line : String) : Keeps kept (·.emit span line) (·.emit span line) := by
  intro session
  have same : (session.keep kept).sink = session.sink := rfl
  dsimp only [Session.emit]
  rw [same]
  rcases session.sink.write line with ⟨sink, refusal⟩
  cases refusal <;> rfl

theorem emitAll (span : Span) (lines : List String) :
    Keeps kept (·.emitAll span lines) (·.emitAll span lines) := by
  induction lines with
  | nil => exact done
  | cons line rest ih => exact andThen (emit span line) ih

/-! ### Statements

Bindings are the only events that a statement records, so they have to be kept. -/

variable (bindings : ∀ name value, kept (.bound name value) = true)
include bindings

theorem act (statement : Tree) (value : Value) :
    Keeps kept (·.act statement value) (·.act statement value) := by
  intro session
  cases statement with
  | assign name _ span =>
    dsimp only [Session.act]
    rw [emit, Session.keep_bind (bindings name value)]
  | print _ span => exact emit span value.display session
  | number | text | reference | operation => rfl

theorem execute (statement : Tree) : Keeps kept (·.execute statement) (·.execute statement) := by
  intro session
  have same : (session.keep kept).environment = session.environment := rfl
  dsimp only
  rw [Session.execute_eq, Session.execute_eq, Session.withValue, Session.withValue, same]
  cases statement.subject.evaluate session.environment with
  | ok value => exact act bindings statement value session
  | error fault => rfl

/-- Running statements neither reads the other events nor records any. -/
theorem interpret (statements : List Tree) :
    Keeps kept (·.interpret statements) (·.interpret statements) := by
  induction statements with
  | nil => exact done
  | cons statement rest ih => exact andThen (execute bindings statement) ih

end Keeps

/-! ## The bindings in the log -/

namespace Session

/-- The bindings in the log; they are the only events of their level. -/
def trace (session : Session) : Array Event :=
  session.log.filter (·.level = .trace)

/-- The session without the other events. -/
def traced (session : Session) : Session :=
  { session with log := session.trace }

end Session

/-- The outcome without the other events. -/
def Outcome.traced (outcome : Outcome) : Outcome :=
  { outcome with session := outcome.session.traced }

namespace Session

theorem trace_traced (session : Session) : session.traced.trace = session.trace :=
  congrArg log session.keep_keep

theorem traced_record (session : Session) (event : Event) (other : event.level ≠ .trace) :
    (session.record event).traced = session.traced :=
  keep_record_of_not (decide_eq_false other) session

theorem traced_record_parsedLine (session : Session) (statements : Nat) :
    (session.record (.parsedLine statements)).traced = session.traced :=
  session.traced_record _ nofun

/-- Running statements neither reads the other events nor records any. -/
theorem interpret_traced (session : Session) (statements : List Tree) :
    (session.interpret statements).traced = session.traced.interpret statements :=
  Keeps.interpret (fun _ _ => rfl) statements session

end Session

end PrintLang
