import PrintLang.Proofs.Chronicle

/-!
# The names that a program touches

A program reads names and assigns to names.  What it does depends on the names that it reads before
it assigns to them, and on no others: on two environments that agree on these it writes and logs the
same, and ends in the same way.  Of the names afterwards, those that it has assigned to have the
same values in both environments, and all others are as they were.

The two runs stay together because every statement widens the agreement by the name that it assigns
to, as long as neither run stops.  As they stop together, the bindings that they have made by then
are the same, and both environments come from the ones before by these bindings.

## Main Definitions

* `Tree.references`, `Tree.needs` — the names in an expression, and those that a program needs
* `Environment.AgreeOn`, `Environment.ChangedAt` — environments that agree on some names, and an
  environment that has changed at some names at most
* `Script.preface`, `Session.boundBy` — what a line logs before its statements run, and what it
  binds

## Main Statements

* `Tree.evaluate_congr` — the value of an expression depends on the names in it
* `Session.interpret_congr` — a run depends on the names that it needs
* `Session.log_runLine` — a line logs what it binds
* `Session.runLine_depends_on_needs` — so does a line, and it changes what it assigns to
-/

namespace PrintLang

/-! ## Names -/

namespace Tree

/-- The names that are looked up in an expression.  A statement in the place of an operand is not
carried out, so nothing is looked up in it. -/
def references : Tree → List String
  | reference name _ => [name]
  | operation left _ right _ => left.references ++ right.references
  | number _ _ | text _ _ | assign _ _ _ | print _ _ => []

/-- The names that statements read before they assign to them. -/
def needs : List Tree → List String
  | [] => []
  | statement :: rest =>
    statement.subject.references ++
      (needs rest).filter fun name => statement.assigned? ≠ some name

end Tree

namespace Environment

/-- Two environments agree on some names: each is bound to the same value in both, or in neither. -/
def AgreeOn (names : List String) (first second : Environment) : Prop :=
  ∀ name ∈ names, first.get? name = second.get? name

/-- Of an environment, what has changed since an earlier one: at most the values of some names, and
those of them that were not bound have been added. -/
structure ChangedAt (names : List String) (before after : Environment) : Prop where
  others : ∀ name, name ∉ names → after.get? name = before.get? name
  size_eq : after.size =
    before.size + (names.toFinset.filter fun name => before.get? name = none).card

variable {first second : Environment}

/-- The same bindings make two environments agree on the names that they bind. -/
theorem AgreeOn.replay {names more : List String} (agree : first.AgreeOn names second)
    (bindings : List (String × Value))
    (covered : ∀ name ∈ more, name ∈ bindings.map Prod.fst ∨ name ∈ names) :
    (first.replay bindings).AgreeOn more (second.replay bindings) := by
  intro name member
  by_cases isBound : name ∈ bindings.map Prod.fst
  · rw [get?_replay_of_mem isBound, get?_replay_of_mem isBound]
  · rw [get?_replay_of_notMem isBound, get?_replay_of_notMem isBound]
    exact agree name ((covered name member).resolve_left isBound)

theorem changedAt_replay (environment : Environment) (bindings : List (String × Value)) :
    environment.ChangedAt (bindings.map Prod.fst) (environment.replay bindings) :=
  ⟨fun _ => get?_replay_of_notMem, environment.size_replay bindings⟩

end Environment

/-! ## Expressions and statements -/

/-- The value of an expression depends on the names in it. -/
theorem Tree.evaluate_congr {first second : Environment} {tree : Tree}
    (agree : first.AgreeOn tree.references second) :
    tree.evaluate first = tree.evaluate second := by
  induction tree with
  | number | text | assign | print => rfl
  | reference name span =>
    rw [evaluate_reference, evaluate_reference, agree name (List.mem_singleton_self name)]
  | operation left operator right span ihLeft ihRight =>
    have leftAgree : first.AgreeOn left.references second :=
      fun name member => agree name (List.mem_append_left _ member)
    have rightAgree : first.AgreeOn right.references second :=
      fun name member => agree name (List.mem_append_right _ member)
    rw [evaluate_operation, evaluate_operation, ihLeft leftAgree, ihRight rightAgree]

/-- Two outcomes look alike: the same has been written, and the same stopped the work, if
anything did. -/
structure Outcome.Alike (one other : Outcome) : Prop where
  fault_eq : one.fault = other.fault
  sink_eq : one.session.sink = other.session.sink

namespace Session

variable {first second : Session} (sameSink : first.sink = second.sink)
include sameSink

theorem alike_emit (span : Span) (line : String) :
    (first.emit span line).Alike (second.emit span line) := by
  rw [emit, emit, sameSink]
  rcases second.sink.write line with ⟨sink, none | refusal⟩
  · exact ⟨rfl, rfl⟩
  · exact ⟨rfl, rfl⟩

theorem alike_act (statement : Tree) (value : Value) :
    (first.act statement value).Alike (second.act statement value) := by
  cases statement with
  | assign name _ span =>
    have boundSink : (first.bind name value).sink = (second.bind name value).sink := sameSink
    exact alike_emit boundSink span _
  | print _ span => exact alike_emit sameSink span _
  | number | text | reference | operation => exact ⟨rfl, sameSink⟩

/-- What a statement does depends on the names in its expression. -/
theorem execute_congr {statement : Tree}
    (agree : first.environment.AgreeOn statement.subject.references second.environment) :
    (first.execute statement).Alike (second.execute statement) ∧
      statement.binding? first.environment = statement.binding? second.environment := by
  have value_eq := Tree.evaluate_congr agree
  constructor
  · rw [execute_eq, execute_eq, withValue, withValue, value_eq]
    cases statement.subject.evaluate second.environment with
    | error fault => exact ⟨rfl, sameSink⟩
    | ok value => exact alike_act sameSink statement value
  · cases statement with
    | assign name value span =>
      have same : value.evaluate first.environment = value.evaluate second.environment := value_eq
      rw [Tree.binding?, Tree.binding?, same]
    | print | number | text | reference | operation => rfl

/-- What a run does depends on the names that it needs. -/
theorem interpret_congr {statements : List Tree}
    (agree : first.environment.AgreeOn (Tree.needs statements) second.environment) :
    (first.interpret statements).Alike (second.interpret statements) ∧
      bound (first.carried statements) = bound (second.carried statements) := by
  induction statements generalizing first second with
  | nil => exact ⟨⟨rfl, sameSink⟩, rfl⟩
  | cons statement rest ih =>
    obtain ⟨alike, binding_eq⟩ := execute_congr sameSink
      fun name member => agree name (List.mem_append_left _ member)
    have firstExtends := first.extends_execute statement
    have secondExtends := second.extends_execute statement
    rw [interpret_cons, interpret_cons, carried, carried, bound_cons, bound_cons, ← binding_eq]
    rw [← binding_eq] at secondExtends
    rcases firstExecutes : first.execute statement with ⟨next, fault⟩
    rcases secondExecutes : second.execute statement with ⟨other, otherFault⟩
    rw [firstExecutes] at alike firstExtends
    rw [secondExecutes] at alike secondExtends
    obtain ⟨rfl, nextSink⟩ := alike
    cases fault with
    | some fault => exact ⟨⟨rfl, nextSink⟩, rfl⟩
    | none =>
      -- The agreement goes on: a name is needed from before, unless this statement binds it.
      have assigned_eq := binding?_of_execute firstExecutes
      have nextAgree : next.environment.AgreeOn (Tree.needs rest) other.environment := by
        rw [firstExtends.environment_eq, secondExtends.environment_eq]
        refine agree.replay _ fun name member => ?_
        by_cases assigned : statement.assigned? = some name
        · left
          rw [← assigned_eq] at assigned
          obtain ⟨binding, binding_eq, rfl⟩ := Option.map_eq_some_iff.mp assigned
          rw [binding_eq]
          exact List.mem_singleton_self _
        · right
          exact List.mem_append_right _
            (List.mem_filter.mpr ⟨member, decide_eq_true assigned⟩)
      obtain ⟨restAlike, rest_eq⟩ := ih nextSink nextAgree
      exact ⟨restAlike, congrArg _ rest_eq⟩

end Session

/-! ## Logs -/

namespace Session

/-- The events of some bindings. -/
def eventsOf (bindings : List (String × Value)) : List Event :=
  bindings.map fun (name, value) => .bound name value

theorem log_emit (session : Session) (span : Span) (line : String) :
    (session.emit span line).session.log = session.log := by
  unfold emit
  rcases session.sink.write line with ⟨sink, none | refusal⟩
  · rfl
  · rfl

/-- A statement logs what it binds. -/
theorem log_execute (session : Session) (statement : Tree) :
    (session.execute statement).session.log.toList =
      session.log.toList ++ eventsOf (statement.binding? session.environment).toList := by
  cases statement with
  | assign name value span =>
    simp only [execute, Tree.binding?]
    cases value.evaluate session.environment with
    | error fault => exact (List.append_nil _).symm
    | ok value =>
      rw [log_emit]
      exact Array.toList_push
  | print value span =>
    simp only [execute, Tree.binding?]
    cases value.evaluate session.environment with
    | error fault => exact (List.append_nil _).symm
    | ok value =>
      rw [log_emit]
      exact (List.append_nil _).symm
  | number | text | reference | operation =>
    simp only [execute, Tree.binding?]
    split <;> exact (List.append_nil _).symm

/-- A run logs what it binds, and nothing else. -/
theorem log_interpret (session : Session) (statements : List Tree) :
    (session.interpret statements).session.log.toList =
      session.log.toList ++ eventsOf (bound (session.carried statements)) := by
  induction statements generalizing session with
  | nil => exact (List.append_nil _).symm
  | cons statement rest ih =>
    have here := session.log_execute statement
    rw [interpret_cons, carried, bound_cons, eventsOf, List.map_append, ← List.append_assoc]
    rcases execute_eq : session.execute statement with ⟨next, none | fault⟩
    · rw [execute_eq] at here
      rw [Outcome.andThen_done, ih next, here]
      rfl
    · rw [execute_eq] at here
      exact here.trans (List.append_nil _).symm

end Session

/-! ## Lines -/

/-- What a line logs before its statements run. -/
def Script.preface (source : String) : List Event :=
  match Token.scan source with
  | .error _ => []
  | .ok scan =>
    Token.warnings source ++
      match Tree.ofTokens scan.tokens with
      | .error _ => []
      | .ok statements => [.parsedLine statements.length]

/-- A line logs that it can be read, and then runs its statements. -/
theorem Session.runLine_eq_runBody (session : Session) (source : String) :
    session.runLine source =
      Script.runBody source
        { session with log := session.log ++ (Script.preface source).toArray } := by
  rw [runLine, Script.runBody, Script.read, Script.preface, Token.warnings]
  cases Token.scan source with
  | error fault => simp
  | ok scan =>
    dsimp only
    rw [noteOpenQuote]
    cases scan.openQuote <;> cases Tree.ofTokens scan.tokens <;>
      simp [record, Array.push_eq_append, -Array.append_singleton]

namespace Session

/-- The bindings that a line makes: those of the assignments that it carries out and whose
expressions have values. -/
def boundBy (session : Session) (source : String) : List (String × Value) :=
  bound (session.carried (Call.line source).program)

/-- A line logs what it binds, and nothing else once its statements run. -/
theorem log_runLine (session : Session) (source : String) :
    (session.runLine source).session.log.toList =
      session.log.toList ++ (Script.preface source ++ eventsOf (session.boundBy source)) := by
  -- What is logged before the statements run makes no difference to the bindings.
  have bound_eq (log : Array Event) (statements : List Tree) :
      bound ({ session with log := log }.carried statements) =
        bound (session.carried statements) := by
    have sameSink : { session with log := log }.sink = session.sink := rfl
    exact (interpret_congr sameSink fun _ _ => rfl).2
  rw [runLine_eq_runBody, Script.runBody, boundBy, Call.program]
  cases Script.read source with
  | error fault => simp [carried, bound, eventsOf]
  | ok statements =>
    dsimp only
    rw [log_interpret, bound_eq, Array.toList_append, List.append_assoc]

/-- What a line does depends on the names that its program needs. -/
theorem runLine_congr {first second : Session} (sameSink : first.sink = second.sink)
    {source : String}
    (agree : first.environment.AgreeOn (Tree.needs (Call.line source).program)
      second.environment) :
    (first.runLine source).Alike (second.runLine source) := by
  rw [runLine_eq_runBody, runLine_eq_runBody, Script.runBody, Script.runBody]
  rw [Call.program] at agree
  cases read_eq : Script.read source with
  | error fault => exact ⟨rfl, sameSink⟩
  | ok statements =>
    rw [read_eq] at agree
    have extendedSink : { first with log := first.log ++ (Script.preface source).toArray }.sink =
        { second with log := second.log ++ (Script.preface source).toArray }.sink := sameSink
    exact (interpret_congr extendedSink agree).1

/-- **A line depends on the names that it needs, and touches those that it binds.**

The two sessions have the same sink, and each of the names that the program reads before it assigns
to it has the same value in both or is unbound in both.  Then the line ends in the same way in both
and writes and logs the same.  It binds the same names, to the same values.  All other names stay as
they were in each of the two, so that the size of an environment grows by the number of the names
that are bound and were not. -/
theorem runLine_depends_on_needs (source : String) (first second : Session)
    (sameSink : first.sink = second.sink)
    (agree : first.environment.AgreeOn (Tree.needs (Call.line source).program)
      second.environment) :
    let one := first.runLine source
    let other := second.runLine source
    let assigned := (first.boundBy source).map Prod.fst
    let events := Script.preface source ++ eventsOf (first.boundBy source)
    one.fault = other.fault ∧ one.session.sink = other.session.sink ∧
      second.boundBy source = first.boundBy source ∧
      one.session.log.toList = first.log.toList ++ events ∧
      other.session.log.toList = second.log.toList ++ events ∧
      one.session.environment.AgreeOn assigned other.session.environment ∧
      first.environment.ChangedAt assigned one.session.environment ∧
      second.environment.ChangedAt assigned other.session.environment := by
  intro one other assigned events
  obtain ⟨fault_eq, sink_eq⟩ := runLine_congr sameSink agree
  have bound_eq : second.boundBy source = first.boundBy source :=
    (interpret_congr sameSink agree).2.symm
  have firstExtends := first.extends_call (.line source)
  have secondExtends := second.extends_call (.line source)
  have one_eq : one.session.environment = first.environment.replay (first.boundBy source) :=
    firstExtends.environment_eq
  have other_eq : other.session.environment = second.environment.replay (first.boundBy source) :=
    bound_eq ▸ secondExtends.environment_eq
  refine ⟨fault_eq, sink_eq, bound_eq, first.log_runLine source, ?_, ?_, ?_, ?_⟩
  · rw [second.log_runLine source, bound_eq]
  · rw [one_eq, other_eq]
    exact agree.replay _ fun name member => Or.inl member
  · rw [one_eq]
    exact first.environment.changedAt_replay _
  · rw [other_eq]
    exact second.environment.changedAt_replay _

/-- The name `y` is bound in one of the two environments only, but it is assigned to before it is
read.  The last statement stops both runs. -/
theorem runLine_depends_on_needs_overwritten :
    let source := "y = x; print y; y = y + z;"
    let first : Session := ⟨(Environment.empty.bind "x" (.text "a")).bind "y" (.text "b"),
      .empty none, #[]⟩
    let second : Session := ⟨Environment.empty.bind "x" (.text "a"), .empty none, #[.finished 7]⟩
    Tree.needs (Call.line source).program = ["x", "z"] ∧
      (first.runLine source).fault = (second.runLine source).fault ∧
      (first.boundBy source) = [("y", .text "a")] ∧
      (first.runLine source).session.environment.get? "y" =
        (second.runLine source).session.environment.get? "y" ∧
      (first.runLine source).session.environment.size = first.environment.size ∧
      (second.runLine source).session.environment.size = second.environment.size + 1 := by
  intro source first second
  have needs_eq : Tree.needs (Call.line source).program = ["x", "z"] := by decide +kernel
  have bound_eq : first.boundBy source = [("y", .text "a")] := by decide +kernel
  have agree : first.environment.AgreeOn (Tree.needs (Call.line source).program)
      second.environment := by
    rw [needs_eq]
    exact List.forall_mem_cons.mpr ⟨by decide +kernel,
      List.forall_mem_singleton.mpr (by decide +kernel)⟩
  obtain ⟨fault_eq, -, -, -, -, agreeAfter, firstChanged, secondChanged⟩ :=
    runLine_depends_on_needs source first second rfl agree
  refine ⟨needs_eq, fault_eq, bound_eq, agreeAfter "y" ?_, ?_, ?_⟩
  · rw [bound_eq]
    exact List.mem_singleton_self _
  · rw [firstChanged.size_eq, bound_eq]
    decide +kernel
  · rw [secondChanged.size_eq, bound_eq]
    decide +kernel

end Session

end PrintLang
