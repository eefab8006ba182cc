import Mathlib.Logic.Function.Basic
import PrintLang.Proofs.Stopping

/-!
# Types

A program is typed without being run: every expression is given the type of its value, and every
assignment the type of its name from there on.  Whether an operator takes its operands depends on
their types alone, with one exception, the division by zero.  So the types of the names before a
run tell how it ends, unless it comes to such a division first.

The agreement is shown for operators, and from there for expressions and statements, each time in
the same form: what happens is what was foreseen, or a division by zero.  A run is then typed
statement by statement, up to the one at which it stops.

## Main Definitions

* `ValueType`, `Typing` — the types of values and of names
* `Tree.typeIn`, `Typing.after`, `Typing.afterAll` — typing expressions, statements and programs
* `Foresees` — what happens is what was foreseen, or a division by zero
* `Session.RunsAsTyped`, `Session.FailsAsTyped`, `Session.DividesByZero` — how a run can end

## Main Statements

* `Tree.foresees_evaluate`, `Session.Executes.foresees` — types foresee values and effects
* `Session.afterAll_of_interpret` — the types of names after a run
* `Session.interpret_foreseen` — every run ends in exactly one of the three ways
-/

namespace PrintLang

/-! ## Typing a program -/

/-- The types of values. -/
inductive ValueType
  | number
  | text
deriving DecidableEq, Repr

/-- The name of a type in messages. -/
def ValueType.name : ValueType → String
  | number => "number"
  | text => "string"

/-- The type of a value. -/
def Value.type : Value → ValueType
  | number _ => .number
  | text _ => .text

/-- The types of the names that are bound. -/
abbrev Typing := String → Option ValueType

/-- The types of the values that names are bound to. -/
def Environment.typing (environment : Environment) : Typing :=
  fun name => (environment.get? name).map Value.type

/-- The type of an operator on operands of two types.  Two numbers make a number; otherwise
only an addition makes something, and that is a text. -/
def Operator.typeOf (operator : Operator) (span : Span) (left right : ValueType) :
    Except Fault ValueType :=
  if left = .number ∧ right = .number then .ok .number
  else if operator = .add then .ok .text
  else
    .error ((Fault.invalidOperation span operator left.name right.name).withHelp
      "Only '+' accepts strings; '-', '*' and '/' need two numbers.")

/-- The type of an expression.  The left operand is typed before the right one, and a statement
has no type. -/
def Tree.typeIn (typing : Typing) : Tree → Except Fault ValueType
  | number _ _ => .ok .number
  | text _ _ => .ok .text
  | reference name span =>
    match typing name with
    | some type => .ok type
    | none => .error (.undefinedVariable span name)
  | operation left operator right span => do
    let leftType ← left.typeIn typing
    let rightType ← right.typeIn typing
    operator.typeOf span leftType rightType
  | assign _ _ span => .error (.notAnExpression span)
  | print _ span => .error (.notAnExpression span)

namespace Typing

/-- The types of names once the expression of a statement has a type.  An assignment gives it to
its name. -/
def settle (typing : Typing) (statement : Tree) (type : ValueType) : Typing :=
  match statement with
  | .assign name _ _ => Function.update typing name (some type)
  | _ => typing

/-- The types of names after a statement. -/
def after (typing : Typing) (statement : Tree) : Except Fault Typing := do
  let type ← statement.subject.typeIn typing
  return typing.settle statement type

/-- The types of names after statements in order, up to the first one whose expression has no
type. -/
def afterAll (typing : Typing) (statements : List Tree) : Except Fault Typing :=
  statements.foldlM after typing

end Typing

/-! ## What is foreseen -/

/-- What happens is what was foreseen, as far as the view on it goes, or a division by zero. -/
inductive Foresees {α β : Type} (view : β → α) : Except Fault α → Except Fault β → Prop
  | value (value : β) : Foresees view (.ok (view value)) (.ok value)
  | fault (fault : Fault) : Foresees view (.error fault) (.error fault)
  | division (foreseen : Except Fault α) (span : Span) :
    Foresees view foreseen (.error (.divisionByZero span))

namespace Foresees

variable {α β γ δ : Type} {view : β → α} {foreseen : Except Fault α} {actual : Except Fault β}

/-- If something happens, it was foreseen. -/
theorem eq_ok {value : β} (foresees : Foresees view foreseen (.ok value)) :
    foreseen = .ok (view value) := by
  cases foresees
  rfl

/-- A fault was foreseen, unless it is a division by zero. -/
theorem eq_error_or {fault : Fault} (foresees : Foresees view foreseen (.error fault)) :
    foreseen = .error fault ∨ ∃ span, fault = .divisionByZero span := by
  cases foresees with
  | fault => exact Or.inl rfl
  | division _ span => exact Or.inr ⟨span, rfl⟩

/-- What happens next is foreseen from what was foreseen before. -/
theorem bind {nextView : δ → γ} {next : α → Except Fault γ} {actualNext : β → Except Fault δ}
    (foresees : Foresees view foreseen actual)
    (goesOn : ∀ value, Foresees nextView (next (view value)) (actualNext value)) :
    Foresees nextView (foreseen >>= next) (actual >>= actualNext) := by
  cases foresees with
  | value value => exact goesOn value
  | fault fault => exact .fault fault
  | division foreseen span => exact .division _ span

end Foresees

/-! ## Values -/

theorem Value.name_type (value : Value) : value.type.name = value.typeName := by
  cases value <;> rfl

/-- The types of operands decide what an operator does with them, but for a zero on the right
of a division. -/
theorem Operator.foresees_apply (operator : Operator) (span : Span) (left right : Value) :
    Foresees Value.type (operator.typeOf span left.type right.type)
      (operator.apply span left right) := by
  have refuse_eq : operator.refuse span left right =
      (Fault.invalidOperation span operator left.type.name right.type.name).withHelp
        "Only '+' accepts strings; '-', '*' and '/' need two numbers." := by
    rw [Value.name_type, Value.name_type, refuse]
  unfold typeOf
  rw [← refuse_eq]
  cases left with
  | text left =>
    cases operator with
    | add => exact .value (Value.text _)
    | subtract | multiply | divide => exact .fault _
  | number left =>
    cases right with
    | text right =>
      cases operator with
      | add => exact .value (Value.text _)
      | subtract | multiply | divide => exact .fault _
    | number right =>
      cases operator with
      | add | subtract | multiply => exact .value (Value.number _)
      | divide =>
        unfold apply
        dsimp only
        by_cases isZero : Binary64.rank right = 0
        · rw [if_pos isZero]
          exact .division _ span
        · rw [if_neg isZero]
          exact .value (Value.number _)

theorem Tree.evaluate_operation_bind (environment : Environment) (left right : Tree)
    (operator : Operator) (span : Span) :
    (operation left operator right span).evaluate environment =
      left.evaluate environment >>= fun leftValue =>
        right.evaluate environment >>= fun rightValue =>
          operator.apply span leftValue rightValue := by
  rw [evaluate_operation]
  cases left.evaluate environment with
  | error fault => rfl
  | ok leftValue => cases right.evaluate environment <;> rfl

/-- The type of an expression foresees its value. -/
theorem Tree.foresees_evaluate (environment : Environment) (tree : Tree) :
    Foresees Value.type (tree.typeIn environment.typing) (tree.evaluate environment) := by
  induction tree with
  | number value => exact .value (Value.number value)
  | text value => exact .value (Value.text value)
  | assign | print => exact .fault _
  | reference name span =>
    rw [evaluate_reference, typeIn, Environment.typing]
    cases environment.get? name with
    | none => exact .fault _
    | some value => exact .value value
  | operation left operator right span ihLeft ihRight =>
    rw [evaluate_operation_bind, typeIn]
    exact ihLeft.bind fun leftValue => ihRight.bind fun rightValue =>
      operator.foresees_apply span leftValue rightValue

/-- No type foresees a division by zero. -/
theorem Tree.typeIn_ne_divisionByZero (typing : Typing) (tree : Tree) (span : Span) :
    tree.typeIn typing ≠ .error (.divisionByZero span) := by
  induction tree with
  | number | text | assign | print => exact nofun
  | reference name _ =>
    unfold typeIn
    split <;> exact nofun
  | operation left operator right _ ihLeft ihRight =>
    unfold typeIn
    cases leftType_eq : left.typeIn typing with
    | error fault =>
      rw [leftType_eq] at ihLeft
      exact ihLeft
    | ok leftType =>
      cases rightType_eq : right.typeIn typing with
      | error fault =>
        rw [rightType_eq] at ihRight
        exact ihRight
      | ok rightType =>
        show operator.typeOf _ leftType rightType ≠ _
        unfold Operator.typeOf
        split_ifs <;> exact nofun

/-- Neither does a type of a statement. -/
theorem Typing.after_ne_divisionByZero (typing : Typing) (statement : Tree) (span : Span) :
    typing.after statement ≠ .error (.divisionByZero span) := by
  have ne := statement.subject.typeIn_ne_divisionByZero typing span
  unfold after
  cases type_eq : statement.subject.typeIn typing with
  | ok type => exact nofun
  | error fault =>
    rintro same
    obtain rfl := Except.error.inj same
    exact ne type_eq

/-- Only a division of numbers fails as a division by zero. -/
theorem Tree.Fails.exists_operands {environment : Environment} {node : Tree}
    {span : Span} (fails : node.Fails environment (.divisionByZero span)) :
    ∃ left right l zero, node = .operation left .divide right span ∧
      left.evaluate environment = .ok (.number l) ∧
      right.evaluate environment = .ok (.number zero) ∧ Binary64.rank zero = 0 := by
  generalize fault_eq : Fault.divisionByZero span = fault at fails
  cases fails with
  | reference | assign | print => cases fault_eq
  | operation left_eq right_eq apply_eq =>
    rcases Operator.eq_of_apply_eq_error apply_eq with rfl | ⟨rfl, rfl, l, zero, rfl, rfl, isZero⟩
    · cases fault_eq
    · cases fault_eq
      exact ⟨_, _, l, zero, rfl, left_eq, right_eq, isZero⟩

/-! ## Effects -/

/-- The session after some work, or what stopped it. -/
def Outcome.result (outcome : Outcome) : Except Fault Session :=
  match outcome.fault with
  | none => .ok outcome.session
  | some fault => .error fault

theorem Environment.typing_bind (environment : Environment) (name : String) (value : Value) :
    (environment.bind name value).typing =
      Function.update environment.typing name (some value.type) := by
  funext other
  rw [typing, get?_bind, Function.update_apply]
  simp only [eq_comm (a := name)]
  split <;> rfl

namespace Session

/-- The types of the names that are bound in a session. -/
def typing (session : Session) : Typing :=
  session.environment.typing

theorem typing_settle (session : Session) (statement : Tree) (value : Value) :
    (session.settle statement value).typing = session.typing.settle statement value.type := by
  cases statement with
  | assign name => exact session.environment.typing_bind name value
  | print | number | text | reference | operation => rfl

/-- Statements do not change the limit of a sink. -/
theorem Executes.limit_eq {session : Session} {statement : Tree} {outcome : Outcome}
    (executes : session.Executes statement outcome) :
    outcome.session.sink.limit = session.sink.limit := by
  cases executes with
  | fails | silent => rfl
  | @written _ line _ _ _ write_eq | @refused _ line _ _ _ _ write_eq =>
    have limit_eq := session.sink.limit_write line
    rw [write_eq] at limit_eq
    exact limit_eq

/-- The types of names foresee what a statement does, if its line cannot be refused. -/
theorem Executes.foresees {session : Session} {statement : Tree} {outcome : Outcome}
    (executes : session.Executes statement outcome) (unlimited : session.sink.limit = none) :
    Foresees typing (session.typing.after statement) outcome.result := by
  have foresees := Tree.foresees_evaluate session.environment statement.subject
  have settled {value : Value}
      (evaluate_eq : statement.subject.evaluate session.environment = .ok value) :
      session.typing.after statement = .ok (session.settle statement value).typing := by
    rw [evaluate_eq] at foresees
    rw [Typing.after, typing, foresees.eq_ok, typing_settle]
    rfl
  cases executes with
  | fails evaluate_eq =>
    rw [evaluate_eq] at foresees
    rcases foresees.eq_error_or with foreseen | ⟨span, rfl⟩
    · rw [Typing.after, typing, foreseen]
      exact .fault _
    · exact .division _ span
  | silent evaluate_eq line_eq =>
    rw [settled evaluate_eq, settle_of_line?_eq_none line_eq]
    exact .value session
  | @written value line sink evaluate_eq line_eq write_eq =>
    rw [settled evaluate_eq]
    exact .value { session.settle statement value with sink := sink }
  | refused _ _ write_eq =>
    rw [Sink.write_of_limit_eq_none _ _ unlimited] at write_eq
    cases write_eq

/-- The types of names after a run that comes to its end are those that the statements give. -/
theorem afterAll_of_interpret {session after : Session} {statements : List Tree}
    (unlimited : session.sink.limit = none)
    (run_eq : session.interpret statements = ⟨after, none⟩) :
    session.typing.afterAll statements = .ok after.typing ∧ after.sink.limit = none := by
  induction statements generalizing session with
  | nil =>
    cases run_eq
    exact ⟨rfl, unlimited⟩
  | cons first rest ih =>
    rw [interpret_cons] at run_eq
    rcases execute : session.execute first with ⟨next, none | fault⟩
    · have executes := executes_of_execute execute
      rw [execute, Outcome.andThen_done] at run_eq
      obtain ⟨rest_eq, limit_eq⟩ := ih (executes.limit_eq.trans unlimited) run_eq
      refine ⟨?_, limit_eq⟩
      rw [Typing.afterAll, List.foldlM_cons, (executes.foresees unlimited).eq_ok]
      exact rest_eq
    · rw [execute, Outcome.andThen_stopped] at run_eq
      cases run_eq

/-! ## How a run ends -/

/-- A run that comes to its end, and leaves names of the types that the statements give. -/
def RunsAsTyped (session : Session) (statements : List Tree) : Prop :=
  ∃ after, session.interpret statements = ⟨after, none⟩ ∧
    session.typing.afterAll statements = .ok after.typing

/-- A run that fails at the first statement without a type, with the fault of typing it. -/
def FailsAsTyped (session : Session) (statements : List Tree) : Prop :=
  ∃ index before statement fault, session.StopsAt statements index before statement ∧
    session.typing.afterAll (statements.take index) = .ok before.typing ∧
    before.typing.after statement = .error fault ∧
    session.interpret statements = ⟨before, some fault⟩

/-- A run that fails at a division by zero.  All statements before it have types, so that typing
fails no earlier than the run, and so have both operands of the division. -/
def DividesByZero (session : Session) (statements : List Tree) : Prop :=
  ∃ index before statement left right span zero,
    session.StopsAt statements index before statement ∧
    session.typing.afterAll (statements.take index) = .ok before.typing ∧
    .operation left .divide right span ∈ statement.subject.visits ∧
    left.typeIn before.typing = .ok .number ∧ right.typeIn before.typing = .ok .number ∧
    right.evaluate before.environment = .ok (.number zero) ∧ Binary64.rank zero = 0 ∧
    session.interpret statements = ⟨before, some (.divisionByZero span)⟩

theorem FailsAsTyped.exists_fault {session : Session} {statements : List Tree}
    (fails : session.FailsAsTyped statements) :
    ∃ before fault, session.interpret statements = ⟨before, some fault⟩ ∧
      ∀ span, fault ≠ .divisionByZero span := by
  obtain ⟨_, before, statement, fault, -, -, foreseen, run_eq⟩ := fails
  refine ⟨before, fault, run_eq, fun span isDivision => ?_⟩
  exact before.typing.after_ne_divisionByZero statement span (isDivision ▸ foreseen)

theorem DividesByZero.exists_span {session : Session} {statements : List Tree}
    (divides : session.DividesByZero statements) :
    ∃ before span, session.interpret statements = ⟨before, some (.divisionByZero span)⟩ := by
  obtain ⟨_, before, _, _, _, span, _, -, -, -, -, -, -, -, run_eq⟩ := divides
  exact ⟨before, span, run_eq⟩

/-- A run that fails does so as typing does, or at a division by zero. -/
theorem failsAsTyped_or_dividesByZero {session after : Session} {statements : List Tree}
    {fault : Fault} (unlimited : session.sink.limit = none)
    (run_eq : session.interpret statements = ⟨after, some fault⟩) :
    session.FailsAsTyped statements ∨ session.DividesByZero statements := by
  obtain ⟨index, before, statement, stops, execute⟩ := exists_stopsAt run_eq
  obtain ⟨typed, limit_eq⟩ := afterAll_of_interpret unlimited stops.done
  have executes := executes_of_execute execute
  have foresees := executes.foresees limit_eq
  cases executes with
  | refused _ _ write_eq =>
    rw [Sink.write_of_limit_eq_none _ _ limit_eq] at write_eq
    cases write_eq
  | fails _ member fails =>
    rcases foresees.eq_error_or with foreseen | ⟨span, rfl⟩
    · exact Or.inl ⟨index, _, statement, fault, stops, typed, foreseen, run_eq⟩
    · obtain ⟨left, right, l, zero, rfl, left_eq, right_eq, isZero⟩ := fails.exists_operands
      have leftForesees := Tree.foresees_evaluate after.environment left
      have rightForesees := Tree.foresees_evaluate after.environment right
      rw [left_eq] at leftForesees
      rw [right_eq] at rightForesees
      exact Or.inr ⟨index, _, statement, left, right, span, zero, stops, typed, member,
        leftForesees.eq_ok, rightForesees.eq_ok, right_eq, isZero, run_eq⟩

/-- **Types foresee every run up to a division by zero.**

From the types of the names that are bound, the statements of a program are typed one after the
other.  On a sink that takes everything, a run ends in exactly one of three ways: all statements
have types, and the run comes to its end with the names of these types; the run fails at the
first statement without a type, with the same fault; or it fails at a division by zero, no later
than that. -/
theorem interpret_foreseen (session : Session) (unlimited : session.sink.limit = none)
    (statements : List Tree) :
    (session.RunsAsTyped statements ∨ session.FailsAsTyped statements ∨
      session.DividesByZero statements) ∧
    ¬ (session.RunsAsTyped statements ∧ session.FailsAsTyped statements) ∧
    ¬ (session.RunsAsTyped statements ∧ session.DividesByZero statements) ∧
    ¬ (session.FailsAsTyped statements ∧ session.DividesByZero statements) := by
  refine ⟨?_, ?_, ?_, ?_⟩
  · rcases run_eq : session.interpret statements with ⟨after, none | fault⟩
    · exact Or.inl ⟨after, run_eq, (afterAll_of_interpret unlimited run_eq).1⟩
    · exact Or.inr (failsAsTyped_or_dividesByZero unlimited run_eq)
  · rintro ⟨⟨_, run_eq, -⟩, fails⟩
    obtain ⟨_, _, fails_eq, -⟩ := fails.exists_fault
    cases run_eq.symm.trans fails_eq
  · rintro ⟨⟨_, run_eq, -⟩, divides⟩
    obtain ⟨_, _, divides_eq⟩ := divides.exists_span
    cases run_eq.symm.trans divides_eq
  · rintro ⟨fails, divides⟩
    obtain ⟨_, _, fails_eq, notDivision⟩ := fails.exists_fault
    obtain ⟨_, span, divides_eq⟩ := divides.exists_span
    cases fails_eq.symm.trans divides_eq
    exact notDivision span rfl

/-- A text divided by a zero: typing foresees the refusal, and no division takes place. -/
theorem interpret_foreseen_text_divided :
    let session := fresh (.empty none)
    let division := Tree.operation (.reference "x" ⟨16, 17⟩) .divide (.number 0 ⟨20, 21⟩) ⟨16, 21⟩
    let statements := [Tree.assign "x" (.text "a" ⟨4, 7⟩) ⟨0, 8⟩, .print division ⟨10, 22⟩]
    session.sink.limit = none ∧ session.FailsAsTyped statements ∧
      ¬ session.DividesByZero statements := by
  intro session division statements
  obtain ⟨ends, -, -, notBoth⟩ := interpret_foreseen session rfl statements
  have fails : session.FailsAsTyped statements := by
    rcases ends with ⟨_, run_eq, -⟩ | fails | divides
    · cases run_eq
    · exact fails
    · obtain ⟨_, _, divides_eq⟩ := divides.exists_span
      cases divides_eq
  exact ⟨rfl, fails, fun divides => notBoth ⟨fails, divides⟩⟩

end Session

end PrintLang
