import PrintLang.Proofs.Listing
import PrintLang.Proofs.Stopping

/-!
# Sinks that fill up

A sink with a limit takes the first bytes of what is written, and refuses the rest of the line in
which the limit is reached.  The fault of this refusal ends the run.  A run on such a sink is
therefore the run on a sink without a limit, broken off at one line: it can be read off the other
one where it ends, what it leaves behind and what it reports.

The invariant is that both sinks hold the same bytes as long as all of them fit.  `Sink.clip`
says what the limited sink holds in every case, so that each step is an equation between a
limited session and the clipped session of the other run.

## Main Definitions

* `Sink.clip`, `Session.clip` — a sink and a session with a limit, given those without one
* `Outcome.clip` — the outcome on the limited sink
* `Session.FillsAt` — the statement whose line is the first one that does not fit

## Main Statements

* `Sink.write_clip`, `Session.execute_clip` — one line and one statement
* `Session.interpret_clip` — statements are run up to the line that does not fit
* `Script.run_limited_of_full`, `Script.run_limited_of_fits` — where a script is broken off
* `Script.run_limited` — a script on a sink that fills up
-/

namespace PrintLang

/-! ## What a limited sink holds -/

namespace Sink

/-- A sink without a limit, which never refused anything. -/
structure Open (sink : Sink) : Prop where
  limit_eq : sink.limit = none
  refused_eq : sink.refused = 0

/-- One sink holds what the other one holds, and possibly more after it. -/
def Extends (later earlier : Sink) : Prop :=
  ∃ rest, later.written = earlier.written ++ rest

theorem Extends.refl (sink : Sink) : sink.Extends sink :=
  ⟨ByteArray.empty, ByteArray.append_empty.symm⟩

theorem Extends.trans {latest later earlier : Sink} (first : latest.Extends later)
    (second : later.Extends earlier) : latest.Extends earlier := by
  obtain ⟨rest, later_eq⟩ := first
  obtain ⟨between, earlier_eq⟩ := second
  refine ⟨between ++ rest, ?_⟩
  rw [later_eq, earlier_eq, ByteArray.append_assoc]

theorem Extends.size_le {later earlier : Sink} (grown : later.Extends earlier) :
    earlier.written.size ≤ later.written.size := by
  obtain ⟨rest, written_eq⟩ := grown
  rw [written_eq, ByteArray.size_append]
  exact Nat.le_add_right _ _

/-- What a sink with a limit holds, once all this has been written to it line by line. -/
def clip (limit : Limit) (sink : Sink) : Sink where
  written := sink.written.extract 0 limit.size
  limit := some limit
  refused := if sink.written.size ≤ limit.size then 0 else 1

variable {sink : Sink} {limit : Limit}

theorem extract_eq_of_size_le {bytes : ByteArray} {size : Nat} (fits : bytes.size ≤ size) :
    bytes.extract 0 size = bytes := by
  have same := ByteArray.extract_zero_max_size (a := bytes) (i := size)
  rwa [Nat.max_eq_left fits] at same

/-- A line is written to the limited sink as far as it fits. -/
theorem write_clip (isOpen : sink.Open) (fits : sink.written.size ≤ limit.size) (line : String) :
    (sink.clip limit).write line =
      ((sink.write line).1.clip limit,
        if (sink.write line).1.written.size ≤ limit.size then none else some limit.refusal) := by
  have held := extract_eq_of_size_le fits
  have taken : (sink.written ++ lineBytes line).extract 0 limit.size =
      sink.written ++ (lineBytes line).extract 0 (limit.size - sink.written.size) := by
    rw [ByteArray.extract_append, held, Nat.zero_sub]
  rw [write_of_limit_eq_none _ _ isOpen.limit_eq]
  unfold write clip
  dsimp only
  rw [held, taken, if_pos fits, ByteArray.size_append]
  by_cases all : sink.written.size + (lineBytes line).size ≤ limit.size
  · have room : (lineBytes line).size ≤ limit.size - sink.written.size := by omega
    rw [if_pos all, if_pos all, if_pos room, extract_eq_of_size_le room]
  · have noRoom : ¬ (lineBytes line).size ≤ limit.size - sink.written.size := by omega
    rw [if_neg all, if_neg all, if_neg noRoom]

theorem clip_of_fits (fits : sink.written.size ≤ limit.size) :
    (sink.clip limit).written = sink.written ∧ (sink.clip limit).refused = 0 :=
  ⟨extract_eq_of_size_le fits, if_pos fits⟩

theorem clip_of_full (full : limit.size < sink.written.size) :
    (sink.clip limit).written = sink.written.extract 0 limit.size ∧
      (sink.clip limit).refused = 1 :=
  ⟨rfl, if_neg (Nat.not_le_of_lt full)⟩

/-- Once a limited sink is full, nothing that follows matters. -/
theorem clip_eq_of_extends {later : Sink} (grown : later.Extends sink)
    (full : limit.size < sink.written.size) : later.clip limit = sink.clip limit := by
  have longer := grown.size_le
  obtain ⟨rest, written_eq⟩ := grown
  unfold clip
  rw [if_neg (by omega), if_neg (by omega), written_eq, ByteArray.extract_append, Nat.zero_sub,
    Nat.sub_eq_zero_of_le (Nat.le_of_lt full), ByteArray.extract_same, ByteArray.append_empty]

/-- A line that is written to a sink without a limit comes after all that was written. -/
theorem Open.extends_write (isOpen : sink.Open) (line : String) :
    (sink.write line).1.Extends sink := by
  rw [write_of_limit_eq_none _ _ isOpen.limit_eq]
  exact ⟨lineBytes line, rfl⟩

theorem Open.write (isOpen : sink.Open) (line : String) : (sink.write line).1.Open := by
  rw [write_of_limit_eq_none _ _ isOpen.limit_eq]
  exact ⟨isOpen.limit_eq, isOpen.refused_eq⟩

end Sink

/-! ## Limited sessions -/

/-- The session with a limited sink instead of its own. -/
def Session.clip (limit : Limit) (session : Session) : Session :=
  { session with sink := session.sink.clip limit }

/-- What becomes of an outcome on a limited sink, if the last of what has been written was
written on behalf of the text at a span. -/
def Outcome.clip (limit : Limit) (span : Span) (outcome : Outcome) : Outcome where
  session := outcome.session.clip limit
  fault :=
    if outcome.session.sink.written.size ≤ limit.size then outcome.fault
    else some (.outputRefused span limit.refusal.reason)

namespace Outcome

variable {limit : Limit}

theorem clip_of_fits (outcome : Outcome) (span : Span)
    (fits : outcome.session.sink.written.size ≤ limit.size) :
    outcome.clip limit span = ⟨outcome.session.clip limit, outcome.fault⟩ := by
  rw [clip, if_pos fits]

theorem clip_of_full (outcome : Outcome) (span : Span)
    (full : limit.size < outcome.session.sink.written.size) :
    outcome.clip limit span =
      ⟨outcome.session.clip limit, some (.outputRefused span limit.refusal.reason)⟩ := by
  rw [clip, if_neg (Nat.not_le_of_lt full)]

end Outcome

namespace Session

variable {session : Session} {limit : Limit}

theorem emit_clip (isOpen : session.sink.Open) (fits : session.sink.written.size ≤ limit.size)
    (span : Span) (line : String) :
    (session.clip limit).emit span line = (session.emit span line).clip limit span := by
  have write_eq := Sink.write_clip isOpen fits line
  have unlimited := Sink.write_of_limit_eq_none session.sink line isOpen.limit_eq
  unfold emit clip
  dsimp only
  rw [write_eq, unlimited]
  dsimp only
  unfold Outcome.clip
  dsimp only
  split_ifs <;> rfl

/-- A statement writes to a limited sink as far as its line fits. -/
theorem execute_clip (isOpen : session.sink.Open)
    (fits : session.sink.written.size ≤ limit.size) (statement : Tree) :
    (session.clip limit).execute statement =
      (session.execute statement).clip limit statement.span := by
  have same : (session.clip limit).environment = session.environment := rfl
  rw [execute_eq, execute_eq, withValue, withValue, same]
  cases statement.subject.evaluate session.environment with
  | error fault => exact (Outcome.clip_of_fits ⟨session, _⟩ _ fits).symm
  | ok value =>
    dsimp only
    rw [act_eq, act_eq]
    cases statement.line? value with
    | none => exact (Outcome.clip_of_fits ⟨session, _⟩ _ fits).symm
    | some line =>
      have settled : (session.settle statement value).sink = session.sink :=
        sink_settle session statement value
      have settle_clip : (session.clip limit).settle statement value =
          (session.settle statement value).clip limit := by
        cases statement <;> rfl
      dsimp only
      rw [settle_clip, emit_clip]
      · rwa [settled]
      · rwa [settled]

/-- What a statement does on a sink without a limit: it writes its line, if it has one. -/
theorem Executes.writes_or {statement : Tree} {outcome : Outcome}
    (executes : session.Executes statement outcome) (isOpen : session.sink.Open) :
    outcome.session.sink = session.sink ∨
      outcome.fault = none ∧ ∃ value line,
        statement.subject.evaluate session.environment = .ok value ∧
        statement.line? value = some line ∧
        outcome.session.sink = (session.sink.write line).1 := by
  cases executes with
  | fails | silent => exact Or.inl rfl
  | written evaluate_eq line_eq write_eq =>
    exact Or.inr ⟨rfl, _, _, evaluate_eq, line_eq, (congrArg Prod.fst write_eq).symm⟩
  | refused _ _ write_eq =>
    rw [Sink.write_of_limit_eq_none _ _ isOpen.limit_eq] at write_eq
    cases write_eq

/-- On a sink without a limit, statements add to what has been written. -/
theorem open_execute (isOpen : session.sink.Open) (statement : Tree) :
    (session.execute statement).session.sink.Open ∧
      (session.execute statement).session.sink.Extends session.sink := by
  rcases (executes_of_execute rfl).writes_or isOpen with sink_eq | ⟨-, _, line, -, -, sink_eq⟩
  · rw [sink_eq]
    exact ⟨isOpen, .refl _⟩
  · rw [sink_eq]
    exact ⟨isOpen.write line, isOpen.extends_write line⟩

theorem open_interpret (isOpen : session.sink.Open) (statements : List Tree) :
    (session.interpret statements).session.sink.Open ∧
      (session.interpret statements).session.sink.Extends session.sink := by
  induction statements generalizing session with
  | nil => exact ⟨isOpen, .refl _⟩
  | cons first rest ih =>
    have grown := open_execute isOpen first
    rw [interpret_cons]
    rcases execute : session.execute first with ⟨next, none | fault⟩
    · rw [execute] at grown
      obtain ⟨restOpen, restGrown⟩ := ih grown.1
      exact ⟨restOpen, restGrown.trans grown.2⟩
    · rw [execute] at grown
      exact grown

/-! ## Where a limited sink fills up -/

/-- The line of the statement with the given index is the first one that does not fit. -/
structure FillsAt (session : Session) (limit : Limit) (statements : List Tree) (index : Nat)
    (before : Session) (statement : Tree) (after : Session) : Prop where
  done : session.interpret (statements.take index) = ⟨before, none⟩
  here : statements[index]? = some statement
  runs : before.interpret [statement] = ⟨after, none⟩
  writes : ∃ value line, statement.subject.evaluate before.environment = .ok value ∧
    statement.line? value = some line ∧
    after.sink.written = before.sink.written ++ Sink.lineBytes line
  fits : before.sink.written.size ≤ limit.size
  full : limit.size < after.sink.written.size

theorem FillsAt.cons {next before after : Session} {first statement : Tree}
    {statements : List Tree} {index : Nat} (runs : session.execute first = ⟨next, none⟩)
    (fills : next.FillsAt limit statements index before statement after) :
    session.FillsAt limit (first :: statements) (index + 1) before statement after := by
  refine ⟨?_, fills.here, fills.runs, fills.writes, fills.fits, fills.full⟩
  rw [List.take_succ_cons, interpret_cons, runs, Outcome.andThen_done]
  exact fills.done

/-- A statement whose line does not fit has run to its end on the sink without a limit. -/
theorem fillsAt_zero {next : Session} {first : Tree} {fault : Option Fault} (rest : List Tree)
    (isOpen : session.sink.Open) (fits : session.sink.written.size ≤ limit.size)
    (execute : session.execute first = ⟨next, fault⟩)
    (full : limit.size < next.sink.written.size) :
    fault = none ∧ session.FillsAt limit (first :: rest) 0 session first next := by
  rcases (executes_of_execute execute).writes_or isOpen with
    sink_eq | ⟨fault_eq, value, line, evaluate_eq, line_eq, sink_eq⟩
  · rw [show next.sink = session.sink from sink_eq] at full
    omega
  · obtain rfl : fault = none := fault_eq
    refine ⟨rfl, rfl, rfl, ?_, ⟨value, line, evaluate_eq, line_eq, ?_⟩, fits, full⟩
    · rw [interpret_singleton, execute]
    · rw [show next.sink = _ from sink_eq, Sink.write_of_limit_eq_none _ _ isOpen.limit_eq]

/-- A run on a limited sink is the run on one without a limit, up to the first statement whose
line does not fit. -/
theorem interpret_clip (isOpen : session.sink.Open)
    (fits : session.sink.written.size ≤ limit.size) (statements : List Tree) :
    let whole := session.interpret statements
    let limited := (session.clip limit).interpret statements
    (whole.session.sink.written.size ≤ limit.size →
      limited = ⟨whole.session.clip limit, whole.fault⟩) ∧
    (limit.size < whole.session.sink.written.size → ∃ index before statement after,
      session.FillsAt limit statements index before statement after ∧
      whole.session.sink.Extends after.sink ∧
      limited =
        ⟨after.clip limit, some (.outputRefused statement.span limit.refusal.reason)⟩) := by
  induction statements generalizing session with
  | nil => exact ⟨fun _ => rfl, fun full => absurd full (Nat.not_lt_of_le fits)⟩
  | cons first rest ih =>
    intro whole limited
    have grown := open_execute isOpen first
    have limited_eq : limited =
        ((session.execute first).clip limit first.span).andThen fun next =>
          next.interpret rest := by
      rw [← execute_clip isOpen fits]
      rfl
    have whole_eq : whole = (session.execute first).andThen fun next => next.interpret rest := rfl
    rcases execute : session.execute first with ⟨next, fault⟩
    rw [execute] at grown limited_eq whole_eq
    rcases Nat.lt_or_ge limit.size next.sink.written.size with full | nextFits
    · -- The line of the first statement does not fit.
      obtain ⟨rfl, fills⟩ := fillsAt_zero rest isOpen fits execute full
      rw [Outcome.clip_of_full _ _ full] at limited_eq
      have longer : whole.session.sink.Extends next.sink := by
        rw [whole_eq]
        exact (open_interpret grown.1 rest).2
      refine ⟨fun wholeFits => ?_, fun _ => ⟨0, session, first, next, fills, longer, limited_eq⟩⟩
      have := longer.size_le
      omega
    · rw [Outcome.clip_of_fits _ _ nextFits] at limited_eq
      cases fault with
      | some fault =>
        rw [whole_eq, limited_eq]
        exact ⟨fun _ => rfl, fun full => absurd full (Nat.not_lt_of_le nextFits)⟩
      | none =>
        rw [whole_eq, limited_eq]
        obtain ⟨restFits, restFull⟩ := ih grown.1 nextFits
        refine ⟨restFits, fun full => ?_⟩
        obtain ⟨index, before, statement, after, fills, longer, rest_eq⟩ := restFull full
        exact ⟨index + 1, before, statement, after, fills.cons execute, longer, rest_eq⟩

/-! ## Listings -/

/-- A session on a sink without a limit that differs from an earlier one only by what has been
written since. -/
structure Wrote (later earlier : Session) : Prop where
  environment_eq : later.environment = earlier.environment
  log_eq : later.log = earlier.log
  isOpen : later.sink.Open
  grown : later.sink.Extends earlier.sink

theorem open_fresh : (fresh (.empty none)).sink.Open :=
  ⟨rfl, rfl⟩

theorem exists_wrote_of_emit (isOpen : session.sink.Open) (span : Span) (line : String) :
    ∃ later : Session, session.emit span line = ⟨later, none⟩ ∧ later.Wrote session := by
  refine ⟨{ session with sink := (session.sink.write line).1 }, ?_, rfl, rfl, isOpen.write line,
    isOpen.extends_write line⟩
  rw [emit, Sink.write_of_limit_eq_none _ _ isOpen.limit_eq]

theorem exists_wrote_of_emitAll (isOpen : session.sink.Open) (span : Span)
    (lines : List String) :
    ∃ later : Session, session.emitAll span lines = ⟨later, none⟩ ∧ later.Wrote session := by
  induction lines generalizing session with
  | nil => exact ⟨session, rfl, rfl, rfl, isOpen, .refl _⟩
  | cons line rest ih =>
    obtain ⟨next, emitted, wrote⟩ := exists_wrote_of_emit isOpen span line
    obtain ⟨later, rest_eq, restWrote⟩ := ih wrote.isOpen
    refine ⟨later, ?_, restWrote.environment_eq.trans wrote.environment_eq,
      restWrote.log_eq.trans wrote.log_eq, restWrote.isOpen,
      restWrote.grown.trans wrote.grown⟩
    rw [emitAll_cons, emitted, Outcome.andThen_done, rest_eq]

/-- Lines are written to a limited sink as far as they fit. -/
theorem emitAll_clip (isOpen : session.sink.Open)
    (fits : session.sink.written.size ≤ limit.size) (span : Span) (lines : List String) :
    (session.clip limit).emitAll span lines =
      (session.emitAll span lines).clip limit span := by
  induction lines generalizing session with
  | nil => exact (Outcome.clip_of_fits ⟨session, none⟩ _ fits).symm
  | cons line rest ih =>
    obtain ⟨next, emitted, wrote⟩ := exists_wrote_of_emit isOpen span line
    rw [emitAll_cons, emitAll_cons, emit_clip isOpen fits, emitted, Outcome.andThen_done]
    rcases Nat.lt_or_ge limit.size next.sink.written.size with full | nextFits
    · -- The lines after the one that does not fit make no difference to the limited sink.
      obtain ⟨later, rest_eq, restWrote⟩ := exists_wrote_of_emitAll wrote.isOpen span rest
      have laterFull := Nat.lt_of_lt_of_le full restWrote.grown.size_le
      have same : later.clip limit = next.clip limit := by
        rw [clip, clip, Sink.clip_eq_of_extends restWrote.grown full,
          restWrote.environment_eq, restWrote.log_eq]
      rw [Outcome.clip_of_full _ _ full, rest_eq, Outcome.clip_of_full _ _ laterFull, same,
        Outcome.andThen_stopped]
    · rw [Outcome.clip_of_fits _ _ nextFits]
      exact ih wrote.isOpen nextFits

end Session

/-! ## Scripts -/

namespace Script

/-- The session that has written the listing of a script to a sink without a limit, and has
done nothing else. -/
def afterListing (dump : Dump) (source : String) : Session :=
  ((Session.fresh (.empty none)).emitAll listingSpan (listing dump source)).session

section

variable (dump : Dump) (source : String) (limit : Limit)

theorem emitAll_listing :
    (Session.fresh (.empty none)).emitAll listingSpan (listing dump source) =
        ⟨afterListing dump source, none⟩ ∧
      (afterListing dump source).Wrote (Session.fresh (.empty none)) := by
  obtain ⟨later, lines_eq, wrote⟩ :=
    Session.exists_wrote_of_emitAll Session.open_fresh listingSpan (listing dump source)
  rw [afterListing, lines_eq]
  exact ⟨rfl, wrote⟩

/-- But for the log, a script on a sink without a limit runs its statements after its listing. -/
theorem run_traced_unlimited :
    (run dump source (.empty none)).traced = runBody source (afterListing dump source) := by
  rw [run_traced, (emitAll_listing dump source).1, Outcome.andThen_done]

/-- What is left out of the log is neither in the sink nor in the fault, and is no binding. -/
theorem run_unlimited_eq :
    let whole := run dump source (.empty none)
    let body := runBody source (afterListing dump source)
    whole.session.sink = body.session.sink ∧ whole.fault = body.fault ∧
      whole.session.trace = body.session.trace := by
  intro whole body
  have same : body = whole.traced := (run_traced_unlimited dump source).symm
  rw [same]
  exact ⟨rfl, rfl, whole.session.trace_traced.symm⟩

/-- On a sink with a limit, the listing may be too long already. -/
theorem run_traced_limited :
    (run dump source (.empty (some limit))).traced =
      (Outcome.clip limit listingSpan ⟨afterListing dump source, none⟩).andThen
        (runBody source) := by
  have fits : (Session.fresh (.empty none)).sink.written.size ≤ limit.size := Nat.zero_le _
  have start_eq : Session.fresh (.empty (some limit)) =
      (Session.fresh (.empty none)).clip limit := by
    rw [Session.clip, Sink.clip, if_pos fits, Sink.extract_eq_of_size_le fits]
    rfl
  rw [run_traced, start_eq, Session.emitAll_clip Session.open_fresh fits,
    (emitAll_listing dump source).1]

/-- What the body of a script writes comes after its listing. -/
theorem runBody_extends {session : Session} (isOpen : session.sink.Open) :
    (runBody source session).session.sink.Extends session.sink := by
  unfold runBody
  cases read source with
  | ok statements => exact (Session.open_interpret isOpen statements).2
  | error fault => exact .refl _

/-- The outcome of the body of a script on a limited sink that the listing fits on: it is that
on the sink without a limit, or it breaks off at a statement. -/
theorem runBody_clip {session : Session} (isOpen : session.sink.Open)
    (fits : session.sink.written.size ≤ limit.size) :
    let whole := runBody source session
    let limited := runBody source (session.clip limit)
    (whole.session.sink.written.size ≤ limit.size →
      limited = ⟨whole.session.clip limit, whole.fault⟩) ∧
    (limit.size < whole.session.sink.written.size →
      ∃ statements index before statement after, Reads source statements ∧
        session.FillsAt limit statements index before statement after ∧
        whole.session.sink.Extends after.sink ∧
        limited =
          ⟨after.clip limit, some (.outputRefused statement.span limit.refusal.reason)⟩) := by
  unfold runBody
  cases read_eq : read source with
  | error fault => exact ⟨fun _ => rfl, fun full => absurd full (Nat.not_lt_of_le fits)⟩
  | ok statements =>
    obtain ⟨allFits, breaksOff⟩ := Session.interpret_clip isOpen fits statements
    refine ⟨allFits, fun full => ?_⟩
    obtain ⟨index, before, statement, after, fills, longer, limited_eq⟩ := breaksOff full
    exact ⟨statements, index, before, statement, after, read_eq_ok_iff.mp read_eq, fills, longer,
      limited_eq⟩

/-- What can be seen of an outcome that is known but for its log. -/
theorem of_traced_eq_clip {outcome : Outcome} {session : Session} {fault : Option Fault}
    (traced_eq : outcome.traced = ⟨session.clip limit, fault⟩) :
    outcome.session.sink = session.sink.clip limit ∧ outcome.fault = fault ∧
      outcome.session.trace = session.trace := by
  have session_eq := congrArg Outcome.session traced_eq
  refine ⟨congrArg Session.sink session_eq, congrArg Outcome.fault traced_eq, ?_⟩
  have trace_eq := congrArg Session.trace session_eq
  rwa [show outcome.traced.session.trace = outcome.session.trace from
    outcome.session.trace_traced] at trace_eq

/-- What can be seen of an outcome on a sink that filled up with what a longer one begins with. -/
theorem of_traced_eq_clip_of_full {outcome : Outcome} {session : Session} {fault : Option Fault}
    {whole : Sink} (traced_eq : outcome.traced = ⟨session.clip limit, fault⟩)
    (longer : whole.Extends session.sink) (full : limit.size < session.sink.written.size) :
    outcome.session.sink.written = whole.written.extract 0 limit.size ∧
      outcome.session.sink.refused = 1 ∧ outcome.fault = fault ∧
      outcome.session.trace = session.trace := by
  obtain ⟨sink_eq, fault_eq, trace_eq⟩ := of_traced_eq_clip limit traced_eq
  have wholeFull := Nat.lt_of_lt_of_le full longer.size_le
  obtain ⟨written_eq, refused_eq⟩ := Sink.clip_of_full wholeFull
  rw [Sink.clip_eq_of_extends longer full, ← sink_eq] at written_eq refused_eq
  exact ⟨written_eq, refused_eq, fault_eq, trace_eq⟩

/-- A line that was refused is reported where it came from, and with the reason of the sink. -/
theorem message_span_of_outputRefused {outcome : Outcome} {span : Span} {reason : String}
    (fault_eq : outcome.fault = some (.outputRefused span reason)) :
    outcome.fault.map Fault.message = some ("Failed to write program output: " ++ reason) ∧
      outcome.fault.map Fault.span = some span := by
  rw [fault_eq]
  exact ⟨rfl, rfl⟩

variable {limit}

/-- If the listing does not fit, no statement is run. -/
theorem run_limited_of_full (full : limit.size < (afterListing dump source).sink.written.size) :
    let limited := run dump source (.empty (some limit))
    let output := (run dump source (.empty none)).session.sink.written
    limit.size < output.size ∧ limited.session.sink.written = output.extract 0 limit.size ∧
      limited.session.sink.refused = 1 ∧
      limited.fault = some (.outputRefused ⟨0, 1⟩ limit.refusal.reason) ∧
      limited.session.trace = #[] := by
  intro limited output
  have wrote := (emitAll_listing dump source).2
  have longer := runBody_extends source wrote.isOpen
  rw [← (run_unlimited_eq dump source).1] at longer
  have limited_eq := run_traced_limited dump source limit
  rw [Outcome.clip_of_full ⟨afterListing dump source, none⟩ _ full,
    Outcome.andThen_stopped] at limited_eq
  obtain ⟨written_eq, refused_eq, fault_eq, trace_eq⟩ :=
    of_traced_eq_clip_of_full limit limited_eq longer full
  have noTrace : (afterListing dump source).trace = #[] := by
    rw [Session.trace, wrote.log_eq]
    rfl
  exact ⟨Nat.lt_of_lt_of_le full longer.size_le, written_eq, refused_eq, fault_eq,
    trace_eq.trans noTrace⟩

/-- If the listing fits, so does everything, or the run is broken off at a statement. -/
theorem run_limited_of_fits (fits : (afterListing dump source).sink.written.size ≤ limit.size) :
    let whole := run dump source (.empty none)
    let limited := run dump source (.empty (some limit))
    let output := whole.session.sink.written
    (output.size ≤ limit.size → limited.session.sink.written = output ∧
      limited.fault = whole.fault ∧ limited.session.sink.refused = 0 ∧
      limited.session.trace = whole.session.trace) ∧
    (limit.size < output.size → ∃ statements index before statement after,
      Reads source statements ∧
      (afterListing dump source).FillsAt limit statements index before statement after ∧
      whole.session.sink.Extends after.sink ∧
      limited.session.sink.written = output.extract 0 limit.size ∧
      limited.session.sink.refused = 1 ∧
      limited.fault = some (.outputRefused statement.span limit.refusal.reason) ∧
      limited.session.trace = after.trace) := by
  intro whole limited output
  have limited_eq := run_traced_limited dump source limit
  rw [Outcome.clip_of_fits ⟨afterListing dump source, none⟩ _ fits,
    Outcome.andThen_done] at limited_eq
  have wrote := (emitAll_listing dump source).2
  obtain ⟨allFits, breaksOff⟩ := runBody_clip source limit wrote.isOpen fits
  obtain ⟨whole_sink, whole_fault, whole_trace⟩ := run_unlimited_eq dump source
  rw [← whole_sink] at allFits breaksOff
  refine ⟨fun wholeFits => ?_, fun wholeFull => ?_⟩
  · rw [allFits wholeFits] at limited_eq
    obtain ⟨sink_eq, fault_eq, trace_eq⟩ := of_traced_eq_clip limit limited_eq
    rw [← whole_sink] at sink_eq
    obtain ⟨written_eq, refused_eq⟩ := Sink.clip_of_fits wholeFits
    rw [← sink_eq] at written_eq refused_eq
    exact ⟨written_eq, fault_eq.trans whole_fault.symm, refused_eq,
      trace_eq.trans whole_trace.symm⟩
  · obtain ⟨statements, index, before, statement, after, reads, fills, later, body_eq⟩ :=
      breaksOff wholeFull
    obtain ⟨written_eq, refused_eq, fault_eq, trace_eq⟩ :=
      of_traced_eq_clip_of_full limit (limited_eq.trans body_eq) later fills.full
    exact ⟨statements, index, before, statement, after, reads, fills, later, written_eq,
      refused_eq, fault_eq, trace_eq⟩

end

/-- **A sink that fills up only breaks off the run.**

Compared are a script on a sink without a limit and the same script on a sink that takes a number
of bytes.  If all that is written fits, the runs agree.  Otherwise the sink holds exactly the
first bytes, has refused one line, and the refusal is what is reported: at the first character of
the source if the line belongs to the listing, and else at the statement that wrote the line on the
other sink.  The message carries the reason of the sink, which is its own if it reports that it is
closed, and else the one for a write that comes to nothing.  The bindings in the log are those up to
this statement. -/
theorem run_limited (dump : Dump) (source : String) (limit : Limit) :
    let whole := run dump source (.empty none)
    let limited := run dump source (.empty (some limit))
    let output := whole.session.sink.written
    let start := afterListing dump source
    whole.session.sink.Extends start.sink ∧
      (output.size ≤ limit.size → limited.session.sink.written = output ∧
        limited.fault = whole.fault ∧ limited.session.sink.refused = 0 ∧
        limited.session.trace = whole.session.trace) ∧
      (limit.size < output.size →
        limited.session.sink.written = output.extract 0 limit.size ∧
        limited.session.sink.refused = 1 ∧
        (limit.refusal.reason = match limit.refusal with
          | .closed => "sink closed"
          | .nothing => "failed to write whole buffer") ∧
        (limit.size < start.sink.written.size →
          limited.fault = some (.outputRefused ⟨0, 1⟩ limit.refusal.reason) ∧
          limited.fault.map Fault.message =
            some ("Failed to write program output: " ++ limit.refusal.reason) ∧
          limited.fault.map Fault.span = some ⟨0, 1⟩ ∧
          limited.session.trace = #[]) ∧
        (start.sink.written.size ≤ limit.size →
          ∃ statements index before statement after, Reads source statements ∧
            start.FillsAt limit statements index before statement after ∧
            whole.session.sink.Extends after.sink ∧
            limited.fault = some (.outputRefused statement.span limit.refusal.reason) ∧
            limited.fault.map Fault.message =
              some ("Failed to write program output: " ++ limit.refusal.reason) ∧
            limited.fault.map Fault.span = some statement.span ∧
            limited.session.trace = after.trace)) := by
  intro whole limited output start
  have longer : whole.session.sink.Extends start.sink := by
    rw [(run_unlimited_eq dump source).1]
    exact runBody_extends source (emitAll_listing dump source).2.isOpen
  have reason_eq : limit.refusal.reason = match limit.refusal with
      | .closed => "sink closed"
      | .nothing => "failed to write whole buffer" := by
    cases limit.refusal <;> rfl
  rcases Nat.lt_or_ge limit.size start.sink.written.size with full | fits
  · obtain ⟨wholeFull, written_eq, refused_eq, fault_eq, trace_eq⟩ :=
      run_limited_of_full dump source full
    obtain ⟨message_eq, span_eq⟩ := message_span_of_outputRefused fault_eq
    refine ⟨longer, fun wholeFits => absurd wholeFull (Nat.not_lt_of_le wholeFits), fun _ => ?_⟩
    exact ⟨written_eq, refused_eq, reason_eq,
      fun _ => ⟨fault_eq, message_eq, span_eq, trace_eq⟩,
      fun fits => absurd full (Nat.not_lt_of_le fits)⟩
  · obtain ⟨allFits, breaksOff⟩ := run_limited_of_fits dump source fits
    refine ⟨longer, allFits, fun wholeFull => ?_⟩
    obtain ⟨statements, index, before, statement, after, reads, fills, later, written_eq,
      refused_eq, fault_eq, trace_eq⟩ := breaksOff wholeFull
    obtain ⟨message_eq, span_eq⟩ := message_span_of_outputRefused fault_eq
    refine ⟨written_eq, refused_eq, reason_eq,
      fun full => absurd full (Nat.not_lt_of_le fits), fun _ => ?_⟩
    exact ⟨statements, index, before, statement, after, reads, fills, later, fault_eq,
      message_eq, span_eq, trace_eq⟩

/-- A sink that takes seven bytes is full after the first of the two bytes of `é`. -/
theorem run_limited_inside_character :
    let source := "x = \"a\"; print \"é\";"
    let limited := run ⟨false, false⟩ source (.empty (some ⟨7, .closed⟩))
    let output := (run ⟨false, false⟩ source (.empty none)).session.sink.written
    output.size = 9 ∧ limited.session.sink.written = output.extract 0 7 ∧
      limited.session.sink.refused = 1 ∧
      limited.fault = some (.outputRefused ⟨9, 19⟩ "sink closed") ∧
      limited.fault.map Fault.message = some "Failed to write program output: sink closed" ∧
      limited.fault.map Fault.span = some ⟨9, 19⟩ := by
  intro source limited output
  obtain ⟨-, -, full⟩ := run_limited ⟨false, false⟩ source ⟨7, .closed⟩
  obtain ⟨written_eq, refused_eq, reason_eq, -, atStatement⟩ := full (by decide +kernel)
  obtain ⟨_, _, _, _, _, -, -, -, -, message_eq, -⟩ := atStatement (by decide +kernel)
  have fault_eq : limited.fault = some (.outputRefused ⟨9, 19⟩ "sink closed") := by
    decide +kernel
  refine ⟨by decide +kernel, written_eq, refused_eq, fault_eq, ?_, ?_⟩
  · rw [message_eq, reason_eq]
    rfl
  · rw [fault_eq]
    rfl

end Script

end PrintLang
