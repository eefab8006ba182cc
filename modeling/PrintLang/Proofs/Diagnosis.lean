import PrintLang.Proofs.Listing
import PrintLang.Proofs.Refusal
import PrintLang.Proofs.Standing
import PrintLang.Proofs.Stopping

/-!
# What faults point at

The span of a fault is what a report underlines, so it has to lie in the text, and the text there
has to be what the fault is about.  What that is depends on the cause: a character, a token, a name,
an operation or a statement.

There are three sources of faults: a scan, the reader and a run of the statements.  A text that
the first two refuse is refused for something that it contains.  A running program fails at a node
of its trees, and these stand in the text since they were read from it; this also excludes
statements in the place of operands.  Only the listing of a script is written on behalf of no part
of the text, and its faults point at the first character whether there is one or not.

## Main Definitions

* `Fault.PointsAt` — what stands at the span of a fault
* `Fault.Located` — a fault inside a text that points at what it is about

## Main Statements

* `Tree.Fails.located`, `Session.located_of_interpret` — the faults of running statements
* `Script.located_of_runBody` — the faults of reading and running a text
* `Script.fault_points_inside` — the faults of lines and of scripts
-/

namespace PrintLang

/-- A program has an operation with the given operator at a span. -/
def Reads.OperationAt (source : String) (operator : Operator) (span : Span) : Prop :=
  ∃ statements, Reads source statements ∧ ∃ statement ∈ statements,
    ∃ left right, .operation left operator right span ∈ statement.subject.visits

/-- What stands at the span of a fault, depending on the cause.  A name that is not bound is not
bound in the environment that is left behind. -/
def Fault.PointsAt (source : String) (environment : Environment) (fault : Fault) : Prop :=
  match fault.cause with
  | .unknownCharacter symbol position =>
    fault.span = ⟨position, position + 1⟩ ∧ source.toList[position]? = some symbol
  | .unexpectedToken _ _ found lexeme =>
    ∃ scan, Token.scan source = .ok scan ∧
      if found = .endOfInput then
        ∃ last, (Token.beforeEnd scan.tokens).getLast? = some last ∧
          fault.span = ⟨last.span.stop - 1, last.span.stop⟩
      else ⟨found, lexeme, fault.span⟩ ∈ scan.tokens
  | .undefinedVariable name =>
    fault.span.slice source.toList = name.toList ∧ environment.get? name = none
  | .invalidOperation operator _ _ => Reads.OperationAt source operator fault.span
  | .divisionByZero => Reads.OperationAt source .divide fault.span
  | .notAnExpression => False
  | .outputRefused _ =>
    ∃ statements, Reads source statements ∧ ∃ statement ∈ statements,
      statement.Writes ∧ statement.span = fault.span

/-- A fault points inside a text, and at what it is about. -/
structure Fault.Located (source : String) (environment : Environment) (fault : Fault) : Prop where
  inside : fault.span.Inside source.length
  points : fault.PointsAt source environment

variable {source : String} {fault : Fault}

/-! ## Reading -/

theorem Fault.located_of_scan (environment : Environment)
    (scans : Token.scan source = .error fault) : fault.Located source environment := by
  obtain ⟨symbol, position, rfl, symbol_eq⟩ := Token.exists_symbol_of_scan scans
  obtain ⟨bound, -⟩ := List.getElem?_eq_some_iff.mp symbol_eq
  rw [String.length_toList] at bound
  exact ⟨⟨Nat.lt_succ_self _, bound⟩, rfl, symbol_eq⟩

theorem Fault.located_of_ofTokens (environment : Environment) {scan : Scan}
    (scans : Token.scan source = .ok scan) (refused : Tree.ofTokens scan.tokens = .error fault) :
    fault.Located source environment := by
  have segmentation := Token.segmentation_of_scan scans
  have inside (token : Token) (member : token ∈ Token.beforeEnd scan.tokens) :
      token.span.Inside source.length := by
    rw [← String.length_toList]
    exact (segmentation.fits token member).inside
  cases Token.refused_of_ofTokens refused with
  | @here token complaint member =>
    refine ⟨inside token member, scan, scans, ?_⟩
    rw [if_neg (Token.kind_ne_of_mem_beforeEnd _ token member)]
    exact (List.takeWhile_sublist _).subset member
  | @atEnd last complaint isLast =>
    have lastInside := inside last (List.mem_of_getLast? isLast)
    refine ⟨Span.inside_atEnd ?_ lastInside.stop_le_length, scan, scans, ?_⟩
    · exact Nat.zero_lt_of_lt lastInside.start_lt_stop
    · rw [if_pos rfl]
      exact ⟨last, isLast, rfl⟩

/-! ## Running -/

/-- A node of a program that fails is what its fault points at. -/
theorem Tree.Fails.located {environment : Environment} {statements : List Tree}
    {statement node : Tree} (fails : node.Fails environment fault)
    (reads : Reads source statements) (isStatement : statement ∈ statements)
    (member : node ∈ statement.subject.visits) : fault.Located source environment := by
  have stands := (reads.statementIn statement isStatement).subject node member
  have inside := stands.inside
  rw [String.length_toList, ← fails.span_eq] at inside
  refine ⟨inside, ?_⟩
  cases fails with
  | reference unbound => exact ⟨stands.reads_name _ _ rfl, unbound⟩
  | operation _ _ apply_eq =>
    rcases Operator.eq_of_apply_eq_error apply_eq with rfl | ⟨rfl, rfl, -⟩
    · exact ⟨statements, reads, statement, isStatement, _, _, member⟩
    · exact ⟨statements, reads, statement, isStatement, _, _, member⟩
  | assign | print => exact absurd trivial stands.writes_nothing

/-- Whatever stops a run of the statements of a program is what the fault points at. -/
theorem Session.located_of_interpret {session after : Session} {statements : List Tree}
    (reads : Reads source statements)
    (run_eq : session.interpret statements = ⟨after, some fault⟩) :
    fault.Located source after.environment := by
  obtain ⟨index, before, statement, stops, execute⟩ := exists_stopsAt run_eq
  have isStatement := List.mem_of_getElem? stops.here
  cases executes_of_execute execute with
  | fails _ member fails => exact fails.located reads isStatement member
  | refused =>
    have stands := reads.statementIn statement isStatement
    have inside := stands.inside
    rw [String.length_toList] at inside
    exact ⟨inside, statements, reads, statement, isStatement, stands.writes, rfl⟩

namespace Script

/-- The faults of reading a text and running its statements. -/
theorem located_of_runBody {session after : Session}
    (run_eq : runBody source session = ⟨after, some fault⟩) :
    fault.Located source after.environment := by
  unfold runBody at run_eq
  split at run_eq
  · next statements read_eq =>
    exact Session.located_of_interpret (read_eq_ok_iff.mp read_eq) run_eq
  · next read_eq =>
    cases run_eq
    unfold read at read_eq
    split at read_eq
    · next scan scans => exact Fault.located_of_ofTokens _ scans read_eq
    · next scans =>
      cases read_eq
      exact Fault.located_of_scan _ scans

/-- **Every fault points inside the source, at what it is about.**

This holds for a line that is run in a session, whatever has happened there before, and for a
script, whatever of it is listed and wherever it writes to.  The one exception is a script whose
listing is refused: then the fault is at the first character, which an empty source lacks. -/
theorem fault_points_inside (source : String) :
    (∀ session after fault, Session.runLine session source = ⟨after, some fault⟩ →
      fault.span.Inside source.length ∧ fault.PointsAt source after.environment) ∧
    ∀ dump sink after fault, run dump source sink = ⟨after, some fault⟩ →
      let listed := (Session.fresh sink).emitAll listingSpan (listing dump source)
      (listed.fault = none ∧ fault.span.Inside source.length ∧
        fault.PointsAt source after.environment) ∨
      (listed.fault = some fault ∧ fault.span = ⟨0, 1⟩ ∧
        (∃ reason, fault.cause = .outputRefused reason) ∧
        (source ≠ "" → fault.span.Inside source.length)) := by
  constructor
  · intro session after fault run_eq
    have traced_eq : Outcome.traced ⟨after, some fault⟩ = runBody source session.traced := by
      rw [← run_eq]
      exact traces_runLine source session
    obtain ⟨inside, points⟩ := located_of_runBody traced_eq.symm
    exact ⟨inside, points⟩
  · intro dump sink after fault run_eq listed
    have traced_eq : Outcome.traced ⟨after, some fault⟩ = listed.andThen (runBody source) := by
      rw [← run_eq]
      exact run_traced dump source sink
    rcases listed_eq : listed with ⟨next, none | refusal⟩
    · rw [listed_eq, Outcome.andThen_done] at traced_eq
      obtain ⟨inside, points⟩ := located_of_runBody traced_eq.symm
      exact Or.inl ⟨rfl, inside, points⟩
    · rw [listed_eq, Outcome.andThen_stopped] at traced_eq
      obtain rfl : fault = refusal := Option.some.inj (congrArg Outcome.fault traced_eq)
      obtain ⟨reason, rfl⟩ :=
        Session.eq_outputRefused_of_emitAll (congrArg Outcome.fault listed_eq)
      refine Or.inr ⟨rfl, rfl, ⟨reason, rfl⟩, fun nonempty => ⟨Nat.one_pos, ?_⟩⟩
      exact Nat.pos_of_ne_zero fun noLength => nonempty (String.length_eq_zero_iff.mp noLength)

/-- A name that is not bound, at its one character; and the listing of an empty script, whose
heading does not fit on the sink. -/
theorem fault_points_inside_unbound_and_empty :
    let sink := Sink.empty (some ⟨3, .closed⟩)
    let unbound := Fault.undefinedVariable ⟨6, 7⟩ "y"
    let refused := Fault.outputRefused ⟨0, 1⟩ "sink closed"
    ((Session.fresh sink).runLine "print y;").fault = some unbound ∧
      unbound.PointsAt "print y;" .empty ∧
      (run ⟨true, false⟩ "" sink).fault = some refused ∧
      ((Session.fresh sink).emitAll listingSpan (listing ⟨true, false⟩ "")).fault =
        some refused := by
  intro sink unbound refused
  obtain ⟨lines, -⟩ := fault_points_inside "print y;"
  obtain ⟨-, points⟩ := lines (.fresh sink) _ unbound rfl
  obtain ⟨-, scripts⟩ := fault_points_inside ""
  refine ⟨rfl, points, rfl, ?_⟩
  rcases scripts ⟨true, false⟩ sink _ refused rfl with ⟨-, inside, -⟩ | ⟨listed_eq, -⟩
  · exact absurd inside.stop_le_length (Nat.not_succ_le_zero 0)
  · exact listed_eq

end Script

end PrintLang
