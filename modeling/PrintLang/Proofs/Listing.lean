import PrintLang.Proofs.Pieces
import PrintLang.Script

/-!
# Scripts and their listings

What a script writes before it runs is fixed by its source.  But for the log, running a script is
therefore writing some lines, and then running a list of statements or stopping with the fault
for which there is none.  Both listings and the line that separates them from the output are a
single list of lines, written on behalf of the same span; if the source is no program, the lines
end where its reading did.

## Main Definitions

* `Traces` — what work amounts to, if its log is left out
* `Script.read` — the statements of a source text
* `Script.listing` — the lines that are written before a script runs
* `Script.prepare`, `Script.complete` — a script up to its listing, and from there on

## Main Statements

* `Session.emitAll_append` — writing lines in two parts
* `Script.traces_runLine` — a line is read and its statements are run
* `Script.run_eq` — a script is prepared and then completed
* `Script.run_traced` — a script writes its listing and runs its statements
-/

namespace PrintLang

/-! ## Writing lines -/

namespace Session

theorem emitAll_cons (session : Session) (span : Span) (line : String) (rest : List String) :
    session.emitAll span (line :: rest) =
      (session.emit span line).andThen fun next => next.emitAll span rest := rfl

/-- Writing lines and then others is writing them joined. -/
theorem emitAll_append (session : Session) (span : Span) (first second : List String) :
    session.emitAll span (first ++ second) =
      (session.emitAll span first).andThen fun next => next.emitAll span second := by
  induction first generalizing session with
  | nil => rfl
  | cons line rest ih =>
    rw [List.cons_append, emitAll_cons, emitAll_cons, Outcome.andThen_assoc]
    congr 1
    funext next
    exact ih next

/-- The only fault of writing lines is that one of them is refused. -/
theorem eq_outputRefused_of_emitAll {session : Session} {span : Span} {lines : List String}
    {fault : Fault} (stopped : (session.emitAll span lines).fault = some fault) :
    ∃ reason, fault = .outputRefused span reason := by
  induction lines generalizing session with
  | nil => cases stopped
  | cons line rest ih =>
    rw [emitAll_cons] at stopped
    rcases emit_eq : session.emit span line with ⟨next, none | refusal⟩
    · rw [emit_eq, Outcome.andThen_done] at stopped
      exact ih stopped
    · rw [emit_eq, Outcome.andThen_stopped] at stopped
      obtain rfl := Option.some.inj stopped
      unfold emit at emit_eq
      split at emit_eq
      · cases emit_eq
      · cases emit_eq
        exact ⟨_, rfl⟩

theorem traced_noteOpenQuote (session : Session) (scan : Scan) :
    (session.noteOpenQuote scan).traced = session.traced := by
  unfold noteOpenQuote
  split
  · exact session.traced_record _ nofun
  · rfl

end Session

theorem Outcome.andThen_done_right (outcome : Outcome) :
    (outcome.andThen fun session => ⟨session, none⟩) = outcome := by
  obtain ⟨session, fault⟩ := outcome
  cases fault <;> rfl

/-! ## Work without its log -/

/-- But for the events that are no bindings, one piece of work is another one. -/
def Traces (work traced : Session → Outcome) : Prop :=
  ∀ session, (work session).traced = traced session.traced

namespace Traces

variable {work traced next tracedNext : Session → Outcome}

theorem andThen (first : Traces work traced) (second : Traces next tracedNext) :
    Traces (fun session => (work session).andThen next)
      (fun session => (traced session).andThen tracedNext) :=
  Keeps.andThen first second

theorem record (event : Session → Event) (other : ∀ session, (event session).level ≠ .trace)
    (goesOn : Traces work traced) :
    Traces (fun session => work (session.record (event session))) traced :=
  Keeps.record_of_not event (fun session => decide_eq_false (other session)) goesOn

theorem done : Traces (fun session => ⟨session, none⟩) (fun session => ⟨session, none⟩) :=
  Keeps.done

theorem stopped (fault : Fault) :
    Traces (fun session => ⟨session, some fault⟩) (fun session => ⟨session, some fault⟩) :=
  Keeps.stopped fault

theorem emitAll (span : Span) (lines : List String) :
    Traces (·.emitAll span lines) (·.emitAll span lines) :=
  Keeps.emitAll span lines

theorem interpret (statements : List Tree) :
    Traces (·.interpret statements) (·.interpret statements) :=
  Keeps.interpret (fun _ _ => rfl) statements

end Traces

namespace Script

/-! ## What a source text determines -/

/-- The statements of a source text, or the fault for which there are none. -/
def read (source : String) : Except Fault (List Tree) :=
  match Token.scan source with
  | .ok scan => Tree.ofTokens scan.tokens
  | .error fault => .error fault

theorem read_eq_ok_iff {source : String} {statements : List Tree} :
    read source = .ok statements ↔ Reads source statements := by
  unfold read Reads
  cases Token.scan source with
  | ok scan => simp
  | error fault => simp

/-- A heading with the displays of items below it, if that is requested. -/
def listed {α : Type} (requested : Bool) (heading : String) (display : α → String)
    (items : List α) : List String :=
  if requested then heading :: items.map display else []

theorem traces_list {α : Type} (requested : Bool) (heading : String) (display : α → String)
    (items : List α) :
    Traces (fun session => list session requested heading display items)
      (·.emitAll listingSpan (listed requested heading display items)) := by
  unfold list listed
  cases requested with
  | false => exact .done
  | true => exact .emitAll _ _

/-- The lines between the tokens of a script and its output. -/
def listedStatements (dump : Dump) (statements : List Tree) : List String :=
  listed dump.statements "--- AST ---" Tree.display statements ++
    listed (dump.tokens || dump.statements) "--- Output ---" (id : String → String) []

/-- The lines that are written before a script runs, as far as its source can be read. -/
def listing (dump : Dump) (source : String) : List String :=
  match Token.scan source with
  | .error _ => []
  | .ok scan =>
    listed dump.tokens "--- Tokens ---" Token.display scan.tokens ++
      match Tree.ofTokens scan.tokens with
      | .error _ => []
      | .ok statements => listedStatements dump statements

/-! ## Running lines and scripts -/

/-- Runs the statements of a source text, if it has some. -/
def runBody (source : String) (session : Session) : Outcome :=
  match read source with
  | .ok statements => session.interpret statements
  | .error fault => ⟨session, some fault⟩

/-- But for the log, a line is read and its statements are run. -/
theorem traces_runLine (source : String) :
    Traces (fun session => session.runLine source) (runBody source) := by
  intro session
  unfold Session.runLine runBody read
  cases Token.scan source with
  | error fault => rfl
  | ok scan =>
    have noted := session.traced_noteOpenQuote scan
    dsimp only
    cases Tree.ofTokens scan.tokens with
    | error fault => rw [← noted, Outcome.traced]
    | ok statements =>
      rw [← noted]
      dsimp only
      rw [Session.interpret_traced, Session.traced_record_parsedLine]

/-- Writes the listing of a script, as far as it can be read, and logs what is listed. -/
def prepare (dump : Dump) (tokens : List Token) (session : Session) : Outcome :=
  (listTokens dump (session.record (.scanned tokens.length)) tokens).andThen fun session =>
    match Tree.ofTokens tokens with
    | .error _ => ⟨session, none⟩
    | .ok statements =>
      (listStatements dump (session.record (.parsed statements.length)) statements).andThen
        (separate dump)

/-- Runs the statements of a script, if it can be read, and logs that it ran to its end. -/
def complete (tokens : List Token) (session : Session) : Outcome :=
  match Tree.ofTokens tokens with
  | .error fault => ⟨session, some fault⟩
  | .ok statements =>
    (session.interpret statements).andThen fun session =>
      ⟨session.record (.finished session.environment.size), none⟩

/-- A script is prepared and then completed. -/
theorem run_eq {source : String} {scan : Scan} (scans : Token.scan source = .ok scan)
    (dump : Dump) (sink : Sink) :
    run dump source sink =
      (prepare dump scan.tokens ((Session.fresh sink).noteOpenQuote scan)).andThen
        (complete scan.tokens) := by
  rw [run, scans]
  dsimp only
  rw [prepare, Outcome.andThen_assoc]
  congr 1
  funext session
  unfold complete
  cases Tree.ofTokens scan.tokens with
  | error fault => rfl
  | ok statements => exact (Outcome.andThen_assoc _ _ _).symm

/-- But for the log, to prepare a script is to write its listing. -/
theorem traces_prepare (dump : Dump) (tokens : List Token) :
    Traces (prepare dump tokens) (·.emitAll listingSpan
      (listed dump.tokens "--- Tokens ---" Token.display tokens ++
        match Tree.ofTokens tokens with
        | .error _ => []
        | .ok statements => listedStatements dump statements)) := by
  have listedTokens := traces_list dump.tokens "--- Tokens ---" Token.display tokens
  intro session
  unfold prepare
  dsimp only
  cases Tree.ofTokens tokens with
  | error fault =>
    rw [List.append_nil, ← Outcome.andThen_done_right (session.traced.emitAll _ _)]
    exact (listedTokens.andThen .done).record (fun _ => .scanned tokens.length) nofun session
  | ok statements =>
    have statementsListed := traces_list dump.statements "--- AST ---" Tree.display statements
    have separated := traces_list (dump.tokens || dump.statements) "--- Output ---" id []
    have parsed := (statementsListed.andThen separated).record
      (fun _ => .parsed statements.length) nofun
    have all := (listedTokens.andThen parsed).record (fun _ => .scanned tokens.length) nofun session
    simp only [← Session.emitAll_append] at all
    exact all

/-- But for the log, to complete a script is to run its statements. -/
theorem traces_complete {source : String} {scan : Scan} (scans : Token.scan source = .ok scan) :
    Traces (complete scan.tokens) (runBody source) := by
  intro session
  rw [runBody, read, scans]
  unfold complete
  dsimp only
  cases Tree.ofTokens scan.tokens with
  | error fault => rfl
  | ok statements =>
    have finished := Traces.done.record (fun session => .finished session.environment.size) nofun
    have all := (Traces.interpret statements).andThen finished session
    simp only [Outcome.andThen_done_right] at all
    exact all

/-- But for the log, a script writes its listing and then runs its statements. -/
theorem run_traced (dump : Dump) (source : String) (sink : Sink) :
    (run dump source sink).traced =
      ((Session.fresh sink).emitAll listingSpan (listing dump source)).andThen
        (runBody source) := by
  cases scans : Token.scan source with
  | error fault =>
    rw [run, listing, scans]
    unfold runBody read
    rw [scans]
    rfl
  | ok scan =>
    have noted : ((Session.fresh sink).noteOpenQuote scan).traced = Session.fresh sink :=
      Session.traced_noteOpenQuote _ scan
    have all := (traces_prepare dump scan.tokens).andThen (traces_complete scans)
      ((Session.fresh sink).noteOpenQuote scan)
    rw [noted] at all
    rw [run_eq scans, listing, scans]
    exact all

end Script

end PrintLang
