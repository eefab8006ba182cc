import PrintLang.Proofs.Continuation
import PrintLang.Proofs.Replay
import PrintLang.Proofs.Truncation

/-!
# What a script adds to a line

A script runs its statements as a line does in a fresh session.  But it writes its listing first,
and it logs how far it gets where a line only logs that it can be read.  On a sink without a limit
this makes no difference to the run itself: whatever stands in the sink and in the log already, a
run of statements only adds to both, and always adds the same.  On a sink with a limit this is not
so, since the listing takes up room.

What a script logs on its way are numbers.  They are compared here with numbers that can be counted
in the source text: its tokens, its semicolons and the names that it assigns to.

## Main Definitions

* `Session.behind` — a session with earlier output and an earlier log in front of its own
* `Session.extended` — a session with more output and a longer log
* `Tree.assigned?` — the name that a statement assigns to
* `Event.IsMilestone` — an event that shows how far a script got
* `Script.chronicle` — all that a script logs
* `Script.AgreesWith` — what a script does, compared with what its text does as a line

## Main Statements

* `Session.interpret_behind` — what stands before a run makes no difference to it
* `Tree.length_eq_countP` — a program has as many statements as semicolons
* `Session.size_environment_of_interpret` — and binds the names that it assigns to
* `Script.run_agrees_with_line` — a script does what a line does, and says more about it
-/

namespace PrintLang

/-! ## Earlier output and an earlier log -/

/-- The bytes of some lines, each of which ends with a line feed. -/
def Sink.linesBytes : List String → ByteArray
  | [] => ByteArray.empty
  | line :: rest => lineBytes line ++ linesBytes rest

theorem Sink.linesBytes_append (first second : List String) :
    linesBytes (first ++ second) = linesBytes first ++ linesBytes second := by
  induction first with
  | nil => exact ByteArray.empty_append.symm
  | cons line rest ih =>
    rw [List.cons_append, linesBytes, linesBytes, ih, ByteArray.append_assoc]

/-- The session with earlier output and an earlier log in front of its own. -/
def Session.behind (written : ByteArray) (log : Array Event) (session : Session) : Session :=
  { session with
    sink := { session.sink with written := written ++ session.sink.written }
    log := log ++ session.log }

/-- The outcome with earlier output and an earlier log in front of its own. -/
def Outcome.behind (written : ByteArray) (log : Array Event) (outcome : Outcome) : Outcome :=
  { outcome with session := outcome.session.behind written log }

section

variable (written : ByteArray) (log : Array Event)

@[simp] theorem Session.log_behind (session : Session) :
    (session.behind written log).log = log ++ session.log := rfl

@[simp] theorem Session.written_behind (session : Session) :
    (session.behind written log).sink.written = written ++ session.sink.written := rfl

@[simp] theorem Outcome.session_behind (outcome : Outcome) :
    (outcome.behind written log).session = outcome.session.behind written log := rfl

@[simp] theorem Outcome.fault_behind (outcome : Outcome) :
    (outcome.behind written log).fault = outcome.fault := rfl

end

namespace Session

variable {session : Session} (written : ByteArray) (log : Array Event)

theorem emit_behind (isOpen : session.sink.Open) (span : Span) (line : String) :
    (session.behind written log).emit span line = (session.emit span line).behind written log := by
  have write_eq := Sink.write_of_limit_eq_none session.sink line isOpen.limit_eq
  have behind_eq := Sink.write_of_limit_eq_none (session.behind written log).sink line
    isOpen.limit_eq
  rw [emit, emit, write_eq, behind_eq]
  simp only [behind, Outcome.behind, ByteArray.append_assoc]

theorem execute_behind (isOpen : session.sink.Open) (statement : Tree) :
    (session.behind written log).execute statement =
      (session.execute statement).behind written log := by
  have same : (session.behind written log).environment = session.environment := rfl
  have bind_eq (name : String) (value : Value) :
      (session.behind written log).bind name value =
        (session.bind name value).behind written log := by
    simp only [behind, bind, record, Array.push_append]
  rw [execute_eq, execute_eq, withValue, withValue, same]
  cases statement.subject.evaluate session.environment with
  | error fault => rfl
  | ok value =>
    cases statement with
    | assign name _ span =>
      have boundOpen : (session.bind name value).sink.Open := isOpen
      dsimp only [act]
      rw [bind_eq]
      exact emit_behind written log boundOpen span _
    | print _ span => exact emit_behind written log isOpen span _
    | number | text | reference | operation => rfl

/-- What has been written and logged before makes no difference to a run of statements. -/
theorem interpret_behind (isOpen : session.sink.Open) (statements : List Tree) :
    (session.behind written log).interpret statements =
      (session.interpret statements).behind written log := by
  induction statements generalizing session with
  | nil => rfl
  | cons statement rest ih =>
    have nextOpen := (open_execute isOpen statement).1
    rw [interpret_cons, interpret_cons, execute_behind written log isOpen]
    rcases execute_eq : session.execute statement with ⟨next, none | fault⟩
    · rw [execute_eq] at nextOpen
      exact ih nextOpen
    · rfl

/-- The session with more output and a longer log. -/
def extended (session : Session) (written : ByteArray) (log : Array Event) : Session :=
  { session with
    sink := { session.sink with written := session.sink.written ++ written }
    log := session.log ++ log }

@[simp] theorem log_extended (session : Session) :
    (session.extended written log).log = session.log ++ log := rfl

@[simp] theorem written_extended (session : Session) :
    (session.extended written log).sink.written = session.sink.written ++ written := rfl

theorem extended_extended (written more : ByteArray) (log later : Array Event) :
    (session.extended written log).extended more later =
      session.extended (written ++ more) (log ++ later) := by
  simp only [extended, ByteArray.append_assoc, Array.append_assoc]

theorem record_eq_extended (session : Session) (event : Event) :
    session.record event = session.extended ByteArray.empty #[event] := by
  simp only [record, extended, ByteArray.append_empty, Array.push_eq_append]

theorem open_extended (isOpen : session.sink.Open) : (session.extended written log).sink.Open :=
  ⟨isOpen.limit_eq, isOpen.refused_eq⟩

/-- A sink without a limit takes any number of lines. -/
theorem emitAll_eq_extended (isOpen : session.sink.Open) (span : Span) (lines : List String) :
    session.emitAll span lines = ⟨session.extended (Sink.linesBytes lines) #[], none⟩ := by
  induction lines generalizing session with
  | nil =>
    simp only [emitAll, extended, Sink.linesBytes, ByteArray.append_empty, Array.append_empty]
  | cons line rest ih =>
    have write_eq := Sink.write_of_limit_eq_none session.sink line isOpen.limit_eq
    have emit_eq : session.emit span line =
        ⟨session.extended (Sink.lineBytes line) #[], none⟩ := by
      simp only [emit, write_eq, extended, Array.append_empty]
    rw [emitAll_cons, emit_eq, Outcome.andThen_done, ih (open_extended _ _ isOpen),
      extended_extended, Array.append_empty, Sink.linesBytes]

/-- At the start nothing stands before and nothing behind. -/
theorem extended_fresh :
    (fresh (.empty none)).extended written log = (fresh (.empty none)).behind written log := by
  simp only [extended, behind, fresh, Sink.empty, ByteArray.append_empty, ByteArray.empty_append,
    Array.append_empty, Array.empty_append]

end Session

/-! ## What is counted -/

/-- The marks of an expression are its tokens, and a semicolon is none of them. -/
theorem Expression.countP_semicolon (expression : Expression) :
    expression.tokens.countP (·.kind = .semicolon) = 0 := by
  refine List.countP_eq_zero.mpr fun token member isSemicolon => ?_
  have marked : token.mark? ∈ expression.tokens.map Token.mark? := List.mem_map_of_mem member
  rw [← expression.inOrder_tree] at marked
  obtain ⟨mark, -, mark_eq⟩ := List.mem_map.mp marked
  rw [Token.mark?, of_decide_eq_true isSemicolon] at mark_eq
  cases mark_eq

theorem Statement.countP_semicolon (statement : Statement) :
    statement.tokens.countP (·.kind = .semicolon) = 1 := by
  have heading : statement.heading.tokens.countP (·.kind = .semicolon) = 0 := by
    cases statement.heading <;> rfl
  rw [Statement.tokens, List.countP_append, List.countP_append, heading,
    statement.value.countP_semicolon]
  rfl

/-- A program has as many statements as its text has semicolons. -/
theorem Tree.length_eq_countP {tokens : List Token} {statements : List Tree}
    (accepted : Tree.ofTokens tokens = .ok statements) :
    statements.length = (Token.beforeEnd tokens).countP (·.kind = .semicolon) := by
  obtain ⟨program, same, rfl⟩ := exists_derivation_of_ofTokens accepted
  rw [← same, List.length_map]
  clear same accepted
  induction program with
  | nil => rfl
  | cons statement rest ih =>
    rw [List.flatMap_cons, List.countP_append, statement.countP_semicolon, ← ih, List.length_cons,
      Nat.add_comm]

/-- The tokens of a source text are those before its end, and one more. -/
theorem Token.exists_eq_beforeEnd_of_scan {source : String} {scan : Scan}
    (scans : Token.scan source = .ok scan) :
    ∃ last : Token, last.kind = .endOfInput ∧
      scan.tokens = Token.beforeEnd scan.tokens ++ [last] := by
  obtain ⟨tokens, closing, lexes, readable, tokens_eq⟩ := exists_readable_of_scan scans
  have noEnd := (lexes.segmentation readable List.drop_zero).kind_ne_endOfInput
  rw [tokens_eq, Token.beforeEnd_concat noEnd rfl]
  exact ⟨_, rfl, rfl⟩

/-- The name that a statement assigns to. -/
def Tree.assigned? : Tree → Option String
  | assign name _ _ => some name
  | _ => none

namespace Session

/-- A statement that is carried out without a fault binds the name that it assigns to. -/
theorem binding?_of_execute {session next : Session} {statement : Tree}
    (done : session.execute statement = ⟨next, none⟩) :
    (statement.binding? session.environment).map Prod.fst = statement.assigned? := by
  cases statement with
  | assign name value span =>
    rw [Tree.binding?]
    cases evaluates : value.evaluate session.environment with
    | error fault =>
      rw [execute, evaluates] at done
      cases done
    | ok value => rfl
  | print | number | text | reference | operation => rfl

/-- A run to the end binds every name that is assigned to. -/
theorem bound_of_interpret {session after : Session} {statements : List Tree}
    (done : session.interpret statements = ⟨after, none⟩) :
    (bound (session.carried statements)).map Prod.fst = statements.filterMap Tree.assigned? := by
  induction statements generalizing session with
  | nil => rfl
  | cons statement rest ih =>
    rw [interpret_cons] at done
    rw [carried, bound_cons, List.map_append]
    rcases execute_eq : session.execute statement with ⟨next, none | fault⟩
    · rw [execute_eq, Outcome.andThen_done] at done
      have here := binding?_of_execute execute_eq
      rw [List.filterMap_cons, ← here, ih done]
      cases statement.binding? session.environment <;> rfl
    · rw [execute_eq] at done
      cases done

/-- After a run to the end of a program there are as many bindings as names that it assigns to. -/
theorem size_environment_of_interpret {after : Session} {statements : List Tree} {sink : Sink}
    (done : (fresh sink).interpret statements = ⟨after, none⟩) :
    after.environment.size = (statements.filterMap Tree.assigned?).dedup.length := by
  have run := (fresh sink).extends_interpret statements
  rw [done] at run
  rw [run.environment_eq, ← bound_of_interpret done]
  exact Environment.size_replay_empty _

end Session

/-! ## Scripts and lines -/

/-- Whether the event is about the program itself, not about how far it got. -/
def Event.isOfProgram (event : Event) : Bool :=
  event.level = .warn || event.level = .trace

/-- What a log shows of an event that counts something: what is counted, and how much of it. -/
structure Event.ShowsCount (event : Event) (message field : String) (count : Nat) : Prop where
  level_eq : event.level = .debug
  message_eq : event.message = message
  fields_eq : event.fields = [(field, .count count)]

/-- An event that tells how far a script got, by the count that it shows. -/
def Event.IsMilestone (event : Event) : Prop :=
  (∃ tokens, event = .scanned tokens ∧ event.ShowsCount "lexed source" "tokens" tokens) ∨
  (∃ statements, event = .parsed statements ∧
    event.ShowsCount "parsed program" "statements" statements) ∨
  ∃ bindings, event = .finished bindings ∧
    event.ShowsCount "program finished" "bindings" bindings

namespace Event

theorem isMilestone_scanned (tokens : Nat) : (scanned tokens).IsMilestone :=
  Or.inl ⟨tokens, rfl, rfl, rfl, rfl⟩

theorem isMilestone_parsed (statements : Nat) : (parsed statements).IsMilestone :=
  Or.inr (Or.inl ⟨statements, rfl, rfl, rfl, rfl⟩)

theorem isMilestone_finished (bindings : Nat) : (finished bindings).IsMilestone :=
  Or.inr (Or.inr ⟨bindings, rfl, rfl, rfl, rfl⟩)

theorem isOfProgram_of_mem_warnings {source : String} {event : Event}
    (member : event ∈ Token.warnings source) : event.isOfProgram := by
  unfold Token.warnings at member
  split at member
  · obtain ⟨start, -, rfl⟩ := List.mem_map.mp member
    rfl
  · cases member

theorem isOfProgram_of_mem_trace {session : Session} {event : Event}
    (member : event ∈ session.trace.toList) : event.isOfProgram := by
  have isTrace := (Array.mem_filter.mp (Array.mem_toList_iff.mp member)).2
  rw [isOfProgram, isTrace, Bool.or_true]

end Event

namespace Script

/-- The events that a script logs before its statements run. -/
def milestones (tokens : List Token) : Array Event :=
  match Tree.ofTokens tokens with
  | .error _ => #[.scanned tokens.length]
  | .ok statements => #[.scanned tokens.length, .parsed statements.length]

/-- The numbers that are logged are those of the tokens before the end, with the end itself, and of
the semicolons among them. -/
theorem milestones_of_scan {source : String} {scan : Scan} (scans : Token.scan source = .ok scan) :
    milestones scan.tokens =
      match Tree.ofTokens scan.tokens with
      | .error _ => #[.scanned ((Token.beforeEnd scan.tokens).length + 1)]
      | .ok _ => #[.scanned ((Token.beforeEnd scan.tokens).length + 1),
          .parsed (scan.tokens.countP (·.kind = .semicolon))] := by
  obtain ⟨last, isEnd, tokens_eq⟩ := Token.exists_eq_beforeEnd_of_scan scans
  have length_eq := congrArg List.length tokens_eq
  have count_eq := congrArg (List.countP (·.kind = .semicolon)) tokens_eq
  rw [List.length_append, List.length_singleton] at length_eq
  rw [List.countP_append, List.countP_singleton, isEnd] at count_eq
  rw [milestones, length_eq]
  cases accepted : Tree.ofTokens scan.tokens with
  | error fault => rfl
  | ok statements =>
    dsimp only
    rw [count_eq, Tree.length_eq_countP accepted]
    rfl

theorem list_eq_extended {α : Type} {session : Session} (isOpen : session.sink.Open)
    (requested : Bool) (heading : String) (display : α → String) (items : List α) :
    list session requested heading display items =
      ⟨session.extended (Sink.linesBytes (listed requested heading display items)) #[], none⟩ := by
  rw [← Session.emitAll_eq_extended isOpen listingSpan]
  unfold list listed
  cases requested <;> rfl

/-- To prepare a script is to write its listing and to log that it has been scanned and parsed. -/
theorem prepare_eq_extended {source : String} {scan : Scan} (scans : Token.scan source = .ok scan)
    (dump : Dump) {session : Session} (isOpen : session.sink.Open) :
    prepare dump scan.tokens session =
      ⟨session.extended (Sink.linesBytes (listing dump source)) (milestones scan.tokens),
        none⟩ := by
  have isOpenAfter (written : ByteArray) (log : Array Event) :
      (session.extended written log).sink.Open := Session.open_extended written log isOpen
  rw [prepare, milestones, listing, scans, listTokens, Session.record_eq_extended,
    list_eq_extended (isOpenAfter _ _), Outcome.andThen_done, Session.extended_extended]
  dsimp only
  cases Tree.ofTokens scan.tokens with
  | error fault => simp
  | ok statements =>
    dsimp only
    rw [listStatements, Session.record_eq_extended, Session.extended_extended,
      list_eq_extended (isOpenAfter _ _), Outcome.andThen_done, Session.extended_extended, separate,
      list_eq_extended (isOpenAfter _ _), Session.extended_extended, listedStatements]
    simp [Sink.linesBytes_append, ByteArray.append_assoc]

/-- The event at the end of a run that no fault has stopped. -/
def ending (outcome : Outcome) : Array Event :=
  match outcome.fault with
  | none => #[.finished outcome.session.environment.size]
  | some _ => #[]

/-- To complete a script is to run its statements and to log that they came to an end. -/
theorem complete_eq_extended {tokens : List Token} {statements : List Tree}
    (accepted : Tree.ofTokens tokens = .ok statements) (session : Session) :
    complete tokens session =
      ⟨(session.interpret statements).session.extended ByteArray.empty
        (ending (session.interpret statements)), (session.interpret statements).fault⟩ := by
  rw [complete, accepted]
  dsimp only
  rcases session.interpret statements with ⟨after, none | fault⟩
  · rw [Outcome.andThen_done, Session.record_eq_extended]
    rfl
  · simp [Session.extended, ending]

/-- What is logged at the end of a program, if there is no fault: how many names it assigns to, each
counted once. -/
def conclusion (statements : List Tree) : Option Fault → List Event
  | none => [.finished (statements.filterMap Tree.assigned?).dedup.length]
  | some _ => []

theorem ending_interpret_fresh (statements : List Tree) (sink : Sink) (written : ByteArray)
    (log : Array Event) :
    (ending (((Session.fresh sink).interpret statements).behind written log)).toList =
      conclusion statements ((Session.fresh sink).interpret statements).fault := by
  rcases interprets : (Session.fresh sink).interpret statements with ⟨after, none | fault⟩
  · rw [conclusion, ← Session.size_environment_of_interpret interprets]
    rfl
  · rfl

/-- All that a script logs, given what comes of its text as a line: warnings, how many tokens it has
and, if it can be read, how many semicolons, then the bindings, and in the end how many names it
assigns to, if it gets there. -/
def chronicle (source : String) (line : Outcome) : List Event :=
  match Token.scan source with
  | .error _ => []
  | .ok scan =>
    Token.warnings source ++ .scanned ((Token.beforeEnd scan.tokens).length + 1) ::
      match Tree.ofTokens scan.tokens with
      | .error _ => []
      | .ok statements =>
        .parsed (scan.tokens.countP (·.kind = .semicolon)) ::
          (line.session.trace.toList ++ conclusion statements line.fault)

theorem isMilestone_of_mem_conclusion {statements : List Tree} {fault : Option Fault}
    {event : Event} (member : event ∈ conclusion statements fault) : event.IsMilestone := by
  cases fault with
  | none =>
    obtain rfl := List.mem_singleton.mp member
    exact Event.isMilestone_finished _
  | some fault => cases member

/-- What a script logs beside warnings and bindings shows counts. -/
theorem isMilestone_of_mem_chronicle {source : String} {line : Outcome} {event : Event}
    (member : event ∈ chronicle source line) (other : ¬ event.isOfProgram) :
    event.IsMilestone := by
  rw [chronicle] at member
  cases scans : Token.scan source with
  | error fault =>
    rw [scans] at member
    cases member
  | ok scan =>
    rw [scans] at member
    rcases List.mem_append.mp member with warned | member
    · exact absurd (Event.isOfProgram_of_mem_warnings warned) other
    rcases List.mem_cons.mp member with rfl | member
    · exact Event.isMilestone_scanned _
    cases accepted : Tree.ofTokens scan.tokens with
    | error fault =>
      rw [accepted] at member
      cases member
    | ok statements =>
      rw [accepted] at member
      rcases List.mem_cons.mp member with rfl | member
      · exact Event.isMilestone_parsed _
      rcases List.mem_append.mp member with traced | concluded
      · exact absurd (Event.isOfProgram_of_mem_trace traced) other
      · exact isMilestone_of_mem_conclusion concluded

section

variable {source : String} {scan : Scan} (scans : Token.scan source = .ok scan)
include scans

theorem noteOpenQuote_fresh :
    (Session.fresh (.empty none)).noteOpenQuote scan =
      (Session.fresh (.empty none)).extended ByteArray.empty (Token.warnings source).toArray := by
  rw [Session.noteOpenQuote, Token.warnings, scans]
  dsimp only
  cases scan.openQuote with
  | none => rfl
  | some start => exact Session.record_eq_extended _ _

/-- A script is completed behind its listing and the events before it. -/
theorem run_eq_complete (dump : Dump) :
    run dump source (.empty none) =
      complete scan.tokens
        ((Session.fresh (.empty none)).behind (Sink.linesBytes (listing dump source))
          ((Token.warnings source).toArray ++ milestones scan.tokens)) := by
  have isOpen := Session.open_extended ByteArray.empty (Token.warnings source).toArray
    Session.open_fresh
  rw [run_eq scans, noteOpenQuote_fresh scans,
    prepare_eq_extended scans dump isOpen, Outcome.andThen_done,
    Session.extended_extended, ByteArray.empty_append, Session.extended_fresh]

/-- A line is run behind its warnings. -/
theorem runLine_eq_behind {statements : List Tree}
    (accepted : Tree.ofTokens scan.tokens = .ok statements) :
    (Session.fresh (.empty none)).runLine source =
      ((Session.fresh (.empty none)).interpret statements).behind ByteArray.empty
        ((Token.warnings source).toArray ++ #[.parsedLine statements.length]) := by
  rw [Session.runLine, scans]
  dsimp only
  rw [accepted]
  dsimp only
  rw [noteOpenQuote_fresh scans, Session.record_eq_extended, Session.extended_extended,
    ByteArray.empty_append, Session.extended_fresh, Session.interpret_behind _ _ Session.open_fresh]

/-- A line logs no bindings but those of its statements. -/
theorem trace_runLine {statements : List Tree}
    (accepted : Tree.ofTokens scan.tokens = .ok statements) :
    ((Session.fresh (.empty none)).runLine source).session.trace =
      ((Session.fresh (.empty none)).interpret statements).session.log := by
  have reads : Reads source statements := ⟨scan, scans, accepted⟩
  exact congrArg (·.session.log) (reads.runLine_traced (.fresh (.empty none)))

end

/-- What a script does, compared with what its text does as a line. -/
structure AgreesWith (dump : Dump) (source : String) (script line : Outcome) : Prop where
  fault_eq : script.fault = line.fault
  written_eq : script.session.sink.written =
    Sink.linesBytes (listing dump source) ++ line.session.sink.written
  shared_eq :
    script.session.log.filter Event.isOfProgram = line.session.log.filter Event.isOfProgram
  log_eq : script.session.log.toList = chronicle source line
  isMilestone : ∀ event ∈ script.session.log.toList, ¬ event.isOfProgram → event.IsMilestone

/-- What the events between the bindings show is settled by what they are. -/
theorem AgreesWith.of_log {dump : Dump} {source : String} {script line : Outcome}
    (fault_eq : script.fault = line.fault)
    (written_eq : script.session.sink.written =
      Sink.linesBytes (listing dump source) ++ line.session.sink.written)
    (shared_eq :
      script.session.log.filter Event.isOfProgram = line.session.log.filter Event.isOfProgram)
    (log_eq : script.session.log.toList = chronicle source line) :
    AgreesWith dump source script line := by
  refine ⟨fault_eq, written_eq, shared_eq, log_eq, fun event member => ?_⟩
  rw [log_eq] at member
  exact isMilestone_of_mem_chronicle member

section

variable {source : String} {scan : Scan} (scans : Token.scan source = .ok scan) (dump : Dump)
include scans

theorem agreesWith_of_error {fault : Fault} (refused : Tree.ofTokens scan.tokens = .error fault) :
    AgreesWith dump source (run dump source (.empty none))
      ((Session.fresh (.empty none)).runLine source) := by
  have line_eq : (Session.fresh (.empty none)).runLine source =
      ⟨(Session.fresh (.empty none)).behind ByteArray.empty (Token.warnings source).toArray,
        some fault⟩ := by
    rw [Session.runLine, scans]
    dsimp only
    rw [refused, noteOpenQuote_fresh scans, Session.extended_fresh]
  rw [run_eq_complete scans dump, complete, milestones_of_scan scans, refused, line_eq]
  apply AgreesWith.of_log
  case fault_eq => rfl
  case written_eq => simp
  case shared_eq => simp [Event.isOfProgram, Event.level]
  case log_eq =>
    rw [chronicle, scans]
    dsimp only
    rw [refused]
    simp [Session.fresh]

theorem agreesWith_of_ok {statements : List Tree}
    (accepted : Tree.ofTokens scan.tokens = .ok statements) :
    AgreesWith dump source (run dump source (.empty none))
      ((Session.fresh (.empty none)).runLine source) := by
  have trace_eq := trace_runLine scans accepted
  have script_eq := run_eq_complete scans dump
  rw [complete_eq_extended accepted, milestones_of_scan scans, accepted,
    Session.interpret_behind _ _ Session.open_fresh] at script_eq
  rw [script_eq]
  rw [runLine_eq_behind scans accepted] at trace_eq ⊢
  apply AgreesWith.of_log
  case fault_eq => rfl
  case written_eq => simp
  case shared_eq =>
    have filter_ending (outcome : Outcome) : (ending outcome).filter Event.isOfProgram = #[] := by
      unfold ending
      cases outcome.fault <;> rfl
    simp [filter_ending, Event.isOfProgram, Event.level]
  case log_eq =>
    rw [chronicle, scans]
    dsimp only
    rw [accepted, trace_eq]
    simp [ending_interpret_fresh]

end

/-- Of a script that cannot be read, only the tokens are listed. -/
example :
    let script := run ⟨true, true⟩ "print" (.empty none)
    script.session.sink.written =
        Sink.linesBytes ["--- Tokens ---", "Print('print')", "EndOfInput('')"] ∧
      script.session.log = #[.scanned 2] := by
  decide +kernel

end Script

end PrintLang
