import PrintLang.Proofs.EvaluationOrder
import PrintLang.Proofs.Execution

/-!
# Culprits

Whatever stops a running program is found at one place: at a node of the expression that is
evaluated, or at the line that the statement writes.  A node fails on its own account: what
it needs of its operands is there, and the node makes nothing of it.

That the fault belongs to the node is all that later modules have to know of it.  Its kind and
its span are then read off the node.

## Main Definitions

* `Tree.Fails` — a node fails on its own account
* `Tree.line?` — the line that a statement writes
* `Session.settle` — what a statement does before it writes
* `Session.Executes` — the ways in which a statement is carried out

## Main Statements

* `Tree.exists_fails_of_evaluate` — an expression without a value has a node that fails
* `Session.executes_of_execute` — what a single statement can do
* `Session.stage_of_interpret` — no statement finds a fault of an earlier stage
-/

namespace PrintLang

/-! ## Nodes that fail -/

/-- A node fails on its own account, with the given fault. -/
inductive Tree.Fails (environment : Environment) : Tree → Fault → Prop
  /-- A name is not bound. -/
  | reference {name : String} {span : Span} (unbound : environment.get? name = none) :
    Fails environment (.reference name span) (.undefinedVariable span name)
  /-- An operator does not take the values of its operands. -/
  | operation {left right : Tree} {operator : Operator} {span : Span}
    {leftValue rightValue : Value} {fault : Fault}
    (left_eq : left.evaluate environment = .ok leftValue)
    (right_eq : right.evaluate environment = .ok rightValue)
    (apply_eq : operator.apply span leftValue rightValue = .error fault) :
    Fails environment (.operation left operator right span) fault
  /-- An assignment stands in the place of an operand. -/
  | assign {name : String} {value : Tree} {span : Span} :
    Fails environment (.assign name value span) (.notAnExpression span)
  /-- A print statement stands in the place of an operand. -/
  | print {value : Tree} {span : Span} :
    Fails environment (.print value span) (.notAnExpression span)

/-- An operator refuses operands that it does not take, or divides by zero. -/
theorem Operator.eq_of_apply_eq_error {operator : Operator} {span : Span} {left right : Value}
    {fault : Fault} (apply_eq : operator.apply span left right = .error fault) :
    fault = operator.refuse span left right ∨
      operator = .divide ∧ fault = .divisionByZero span ∧
        ∃ l r, left = .number l ∧ right = .number r ∧ Binary64.rank r = 0 := by
  cases left with
  | text left =>
    cases operator with
    | add => cases apply_eq
    | subtract | multiply | divide => exact Or.inl (Except.error.inj apply_eq).symm
  | number left =>
    cases right with
    | text right =>
      cases operator with
      | add => cases apply_eq
      | subtract | multiply | divide => exact Or.inl (Except.error.inj apply_eq).symm
    | number right =>
      cases operator with
      | add | subtract | multiply => cases apply_eq
      | divide =>
        unfold apply at apply_eq
        dsimp only at apply_eq
        split at apply_eq
        · next isZero =>
          exact Or.inr ⟨rfl, (Except.error.inj apply_eq).symm, left, right, rfl, rfl, isZero⟩
        · cases apply_eq

/-- A node that fails stands where its fault does, and the fault is one of running. -/
theorem Tree.Fails.span_eq {environment : Environment} {node : Tree} {fault : Fault}
    (fails : node.Fails environment fault) : fault.span = node.span := by
  cases fails with
  | reference | assign | print => rfl
  | operation _ _ apply_eq =>
    rcases Operator.eq_of_apply_eq_error apply_eq with rfl | ⟨-, rfl, -⟩
    · rfl
    · rfl

theorem Tree.Fails.stage_eq {environment : Environment} {node : Tree} {fault : Fault}
    (fails : node.Fails environment fault) : fault.cause.stage = .run := by
  cases fails with
  | reference | assign | print => rfl
  | operation _ _ apply_eq =>
    rcases Operator.eq_of_apply_eq_error apply_eq with rfl | ⟨-, rfl, -⟩
    · rfl
    · rfl

theorem Tree.Fails.cause_ne {environment : Environment} {node : Tree} {fault : Fault}
    (fails : node.Fails environment fault) (reason : String) :
    fault.cause ≠ .outputRefused reason := by
  cases fails with
  | reference | assign | print => exact Cause.noConfusion
  | operation _ _ apply_eq =>
    rcases Operator.eq_of_apply_eq_error apply_eq with rfl | ⟨-, rfl, -⟩
    · exact Cause.noConfusion
    · exact Cause.noConfusion

/-- An expression without a value has a node that fails, and its fault is that of the node. -/
theorem Tree.exists_fails_of_evaluate {environment : Environment} {tree : Tree} {fault : Fault}
    (evaluate_eq : tree.evaluate environment = .error fault) :
    ∃ node ∈ tree.visits, node.Fails environment fault := by
  induction tree with
  | number | text => cases evaluate_eq
  | assign name value span =>
    obtain rfl := Except.error.inj evaluate_eq
    exact ⟨_, List.mem_singleton_self _, .assign⟩
  | print value span =>
    obtain rfl := Except.error.inj evaluate_eq
    exact ⟨_, List.mem_singleton_self _, .print⟩
  | reference name span =>
    rw [evaluate_reference] at evaluate_eq
    split at evaluate_eq
    · cases evaluate_eq
    · next unbound =>
      obtain rfl := Except.error.inj evaluate_eq
      exact ⟨_, List.mem_singleton_self _, .reference unbound⟩
  | operation left operator right span ihLeft ihRight =>
    rw [evaluate_operation] at evaluate_eq
    rw [visits]
    -- The fault is that of the left operand, else of the right one, else of the operator.
    cases left_eq : left.evaluate environment with
    | error leftFault =>
      rw [left_eq] at evaluate_eq
      obtain rfl := Except.error.inj evaluate_eq
      obtain ⟨node, member, fails⟩ := ihLeft left_eq
      exact ⟨node, List.mem_append_left _ (List.mem_append_left _ member), fails⟩
    | ok leftValue =>
      cases right_eq : right.evaluate environment with
      | error rightFault =>
        rw [left_eq, right_eq] at evaluate_eq
        obtain rfl := Except.error.inj evaluate_eq
        obtain ⟨node, member, fails⟩ := ihRight right_eq
        exact ⟨node, List.mem_append_left _ (List.mem_append_right _ member), fails⟩
      | ok rightValue =>
        rw [left_eq, right_eq] at evaluate_eq
        exact ⟨_, List.mem_append_right _ (List.mem_singleton_self _),
          .operation left_eq right_eq evaluate_eq⟩

/-! ## What a statement does -/

/-- The line that a statement writes, given the value of its expression.  An expression writes
none. -/
def Tree.line? (statement : Tree) (value : Value) : Option String :=
  match statement with
  | assign name _ _ => some (name ++ " = " ++ value.display)
  | print _ _ => some value.display
  | _ => none

/-- A statement that writes a line: an assignment or a print statement. -/
def Tree.Writes : Tree → Prop
  | assign _ _ _ | print _ _ => True
  | _ => False

theorem Tree.writes_of_line? {statement : Tree} {value : Value} {line : String}
    (line_eq : statement.line? value = some line) : statement.Writes := by
  cases statement with
  | assign | print => trivial
  | number | text | reference | operation => cases line_eq

namespace Session

/-- The session after a statement has bound its name, if it binds one. -/
def settle (session : Session) (statement : Tree) (value : Value) : Session :=
  match statement with
  | .assign name _ _ => session.bind name value
  | _ => session

theorem sink_settle (session : Session) (statement : Tree) (value : Value) :
    (session.settle statement value).sink = session.sink := by
  cases statement <;> rfl

theorem settle_of_line?_eq_none {session : Session} {statement : Tree} {value : Value}
    (line_eq : statement.line? value = none) : session.settle statement value = session := by
  cases statement with
  | assign => cases line_eq
  | print | number | text | reference | operation => rfl

/-- A statement settles and then writes its line, if it has one. -/
theorem act_eq (session : Session) (statement : Tree) (value : Value) :
    session.act statement value =
      match statement.line? value with
      | some line => (session.settle statement value).emit statement.span line
      | none => ⟨session, none⟩ := by
  cases statement <;> rfl

/-- What a single statement can do: its expression has no value and nothing happens, or it has
one and the line of the statement is written or refused, if there is a line. -/
inductive Executes (session : Session) (statement : Tree) : Outcome → Prop
  /-- A node of the expression fails. -/
  | fails {node : Tree} {fault : Fault}
    (evaluate_eq : statement.subject.evaluate session.environment = .error fault)
    (member : node ∈ statement.subject.visits) (fails : node.Fails session.environment fault) :
    Executes session statement ⟨session, some fault⟩
  /-- There is no line to write. -/
  | silent {value : Value}
    (evaluate_eq : statement.subject.evaluate session.environment = .ok value)
    (line_eq : statement.line? value = none) : Executes session statement ⟨session, none⟩
  /-- The line is written. -/
  | written {value : Value} {line : String} {sink : Sink}
    (evaluate_eq : statement.subject.evaluate session.environment = .ok value)
    (line_eq : statement.line? value = some line)
    (write_eq : session.sink.write line = (sink, none)) :
    Executes session statement ⟨{ session.settle statement value with sink := sink }, none⟩
  /-- The line is refused. -/
  | refused {value : Value} {line : String} {sink : Sink} {refusal : Refusal}
    (evaluate_eq : statement.subject.evaluate session.environment = .ok value)
    (line_eq : statement.line? value = some line)
    (write_eq : session.sink.write line = (sink, some refusal)) :
    Executes session statement ⟨{ session.settle statement value with sink := sink },
      some (.outputRefused statement.span refusal.reason)⟩

/-- There is nothing else that a statement can do. -/
theorem executes_of_execute {session : Session} {statement : Tree} {outcome : Outcome}
    (execute : session.execute statement = outcome) : session.Executes statement outcome := by
  subst execute
  rw [execute_eq, withValue]
  cases evaluate_eq : statement.subject.evaluate session.environment with
  | error fault =>
    obtain ⟨node, member, fails⟩ := Tree.exists_fails_of_evaluate evaluate_eq
    exact .fails evaluate_eq member fails
  | ok value =>
    dsimp only
    rw [act_eq]
    cases line_eq : statement.line? value with
    | none => exact .silent evaluate_eq line_eq
    | some line =>
      dsimp only
      rw [emit, sink_settle]
      rcases write_eq : session.sink.write line with ⟨sink, refusal⟩
      cases refusal with
      | none => exact .written evaluate_eq line_eq write_eq
      | some refusal => exact .refused evaluate_eq line_eq write_eq

/-- Whatever stops a statement is a fault of running. -/
theorem Executes.stage_eq {session after : Session} {statement : Tree} {fault : Fault}
    (executes : session.Executes statement ⟨after, some fault⟩) : fault.cause.stage = .run := by
  cases executes with
  | fails _ _ fails => exact fails.stage_eq
  | refused => rfl

/-- So does whatever stops a run of statements. -/
theorem stage_of_interpret {session after : Session} {statements : List Tree} {fault : Fault}
    (stopped : session.interpret statements = ⟨after, some fault⟩) : fault.cause.stage = .run := by
  induction statements generalizing session with
  | nil => cases stopped
  | cons statement rest ih =>
    rw [interpret_cons] at stopped
    rcases execute : session.execute statement with ⟨next, none | first⟩
    · rw [execute, Outcome.andThen_done] at stopped
      exact ih stopped
    · rw [execute, Outcome.andThen_stopped] at stopped
      cases stopped
      exact (executes_of_execute execute).stage_eq

end Session

end PrintLang
