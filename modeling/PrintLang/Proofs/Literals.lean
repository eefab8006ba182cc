import PrintLang.Proofs.Chronicle

/-!
# Literals in the place of names

A name that is bound stands for its value, so a literal of this value can be put in its place.  The
result of an expression stays the same, be it a value or a fault, whichever of the names in it are
replaced and whatever spans the literals are given.  For faults this needs that operators look at
the values of their operands only, and neither at the nodes that the values come from nor at their
spans.

In a program the value of a name changes with each assignment to it.  From an assignment on, up to
and including the expression of the next one, the name stands for one value.

## Main Definitions

* `Value.literal` — the tree that stands for a value
* `Choice` — the nodes of a tree where literals are put, with the spans of the literals
* `Tree.withLiterals`, `Tree.withLiteralsFor` — literals in the place of names in a tree, and in the
  place of one name in statements

## Main Statements

* `Tree.evaluate_withLiterals` — literals do not change the result of an expression
* `Session.interpret_withLiteralsFor` — nor what statements do, as long as the name keeps its value
* `Session.interpret_after_assign` — hence a name can be replaced after an assignment to it
-/

namespace PrintLang

/-! ## Putting literals -/

/-- The tree that stands for a value. -/
def Value.literal (value : Value) (span : Span) : Tree :=
  match value with
  | number value => .number value span
  | text value => .text value span

theorem Value.evaluate_literal (value : Value) (span : Span) (environment : Environment) :
    (value.literal span).evaluate environment = .ok value := by
  cases value <;> rfl

/-- A step from a node to one of its operands, or to the expression of a statement. -/
inductive Branch
  | left
  | right
  | value
deriving DecidableEq

/-- Some nodes of a tree, each known by the way to it, and the spans of the literals that are put
there. -/
abbrev Choice := List Branch → Option Span

/-- The nodes among the chosen ones that lie behind a branch. -/
def Choice.behind (chosen : Choice) (branch : Branch) : Choice :=
  fun way => chosen (branch :: way)

namespace Tree

/-- The tree with literals in the place of the chosen names, as far as their values are known.  What
a statement in the place of an operand contains can be chosen as well. -/
def withLiterals (known : String → Option Value) (chosen : Choice) : Tree → Tree
  | assign name value span => assign name (value.withLiterals known (chosen.behind .value)) span
  | print value span => print (value.withLiterals known (chosen.behind .value)) span
  | operation left operator right span =>
    operation (left.withLiterals known (chosen.behind .left)) operator
      (right.withLiterals known (chosen.behind .right)) span
  | number value span => number value span
  | text value span => text value span
  | reference name span =>
    match chosen [], known name with
    | some other, some value => value.literal other
    | _, _ => reference name span

/-- Statements with literals for a value in the place of some occurrences of a name, up to the next
assignment to this name and in its expression. -/
def withLiteralsFor (name : String) (value : Value) : (Nat → Choice) → List Tree → List Tree
  | _, [] => []
  | chosen, statement :: rest =>
    statement.withLiterals (fun other => if other = name then some value else none) (chosen 0) ::
      if statement.assigned? = some name then rest
      else withLiteralsFor name value (fun i => chosen (i + 1)) rest

/-! ## Expressions -/

section

variable {environment : Environment} {known : String → Option Value}
  (holds : ∀ name value, known name = some value → environment.get? name = some value)

include holds

/-- A name evaluates to its value, as does a literal in its place. -/
theorem evaluate_withLiterals_reference (chosen : Choice) (name : String) (span : Span) :
    ((reference name span).withLiterals known chosen).evaluate environment =
      (reference name span).evaluate environment := by
  rw [withLiterals]
  split
  · next other value _ known_eq =>
    rw [value.evaluate_literal, evaluate_reference, holds name value known_eq]
  · rfl

/-- Literals do not change the result of an expression. -/
theorem evaluate_withLiterals (chosen : Choice) (tree : Tree) :
    (tree.withLiterals known chosen).evaluate environment = tree.evaluate environment := by
  induction tree generalizing chosen with
  | number | text | assign | print => rfl
  | reference name span => exact evaluate_withLiterals_reference holds chosen name span
  | operation left operator right span ihLeft ihRight =>
    rw [withLiterals, evaluate_operation, evaluate_operation, ihLeft, ihRight]

end

end Tree

/-! ## Statements -/

namespace Session

section

variable {session : Session} {known : String → Option Value} (chosen : Choice) (statement : Tree)

/-- What a statement does with a value does not depend on names in its expression. -/
theorem act_withLiterals :
    session.act (statement.withLiterals known chosen) = session.act statement := by
  cases statement with
  | number | text | assign | print | operation => rfl
  | reference name span =>
    rw [Tree.withLiterals]
    split
    · next value _ _ => cases value <;> rfl
    · rfl

variable (holds : ∀ name value, known name = some value →
  session.environment.get? name = some value)

include holds

theorem evaluate_subject_withLiterals :
    (statement.withLiterals known chosen).subject.evaluate session.environment =
      statement.subject.evaluate session.environment := by
  cases statement with
  | number | text => rfl
  | assign name value span => exact Tree.evaluate_withLiterals holds (chosen.behind .value) value
  | print value span => exact Tree.evaluate_withLiterals holds (chosen.behind .value) value
  | operation left operator right span => exact Tree.evaluate_withLiterals holds chosen _
  | reference name span =>
    have isExpression : ((Tree.reference name span).withLiterals known chosen).subject =
        (Tree.reference name span).withLiterals known chosen := by
      rw [Tree.withLiterals]
      split
      · next value _ _ => cases value <;> rfl
      · rfl
    rw [isExpression]
    exact Tree.evaluate_withLiterals holds chosen _

/-- Literals do not change what a statement does. -/
theorem execute_withLiterals :
    session.execute (statement.withLiterals known chosen) = session.execute statement := by
  rw [execute_eq, execute_eq, withValue, withValue,
    evaluate_subject_withLiterals chosen statement holds, act_withLiterals]

end

/-- A statement that does not assign to a name leaves its value as it is. -/
theorem get?_execute {session next : Session} {statement : Tree} {name : String}
    (done : session.execute statement = ⟨next, none⟩) (other : statement.assigned? ≠ some name) :
    next.environment.get? name = session.environment.get? name := by
  have extended := session.extends_execute statement
  rw [done] at extended
  rw [extended.environment_eq]
  refine Environment.get?_replay_of_notMem fun member => other ?_
  rw [← binding?_of_execute done]
  obtain ⟨binding, isBinding, rfl⟩ := List.mem_map.mp member
  rw [Option.mem_toList.mp isBinding]
  rfl

/-- As long as a name keeps its value, literals do not change what statements do. -/
theorem interpret_withLiteralsFor {session : Session} {name : String} {value : Value}
    (bound : session.environment.get? name = some value) (chosen : Nat → Choice)
    (statements : List Tree) :
    session.interpret (Tree.withLiteralsFor name value chosen statements) =
      session.interpret statements := by
  induction statements generalizing session chosen with
  | nil => rfl
  | cons statement rest ih =>
    have holds (other : String) (known : Value)
        (known_eq : (if other = name then some value else none) = some known) :
        session.environment.get? other = some known := by
      obtain ⟨rfl, same⟩ := Option.ite_none_right_eq_some.mp known_eq
      exact bound.trans same
    rw [Tree.withLiteralsFor, interpret_cons, interpret_cons,
      execute_withLiterals (chosen 0) statement holds]
    split
    · rfl
    · next other =>
      rcases execute_eq : session.execute statement with ⟨next, none | fault⟩
      · exact ih ((get?_execute execute_eq other).trans bound) _
      · rfl

/-- **Names can be replaced by literals of their values.**

In an expression, any names that are bound are replaced by the numbers and texts that they are bound
to, and the literals have any spans: the result is the same, and if it is a fault, it is the same
in its cause, its span and its advice.  In a program, a statement assigns a value to a name.  Then
occurrences of this name in later statements, up to and including the expression of the next
assignment to it, are replaced by the value: the outcome is the same, with its environment, what it
has written, its log and its fault. -/
theorem interpret_after_assign :
    (∀ (environment : Environment) (tree : Tree) (chosen : Choice),
      (tree.withLiterals environment.get? chosen).evaluate environment =
        tree.evaluate environment) ∧
    ∀ (session before : Session) (earlier : List Tree) (name : String) (expression : Tree)
      (span : Span) (value : Value),
      session.interpret earlier = ⟨before, none⟩ →
      expression.evaluate before.environment = .ok value →
      ∀ (later : List Tree) (chosen : Nat → Choice),
        session.interpret (earlier ++
            .assign name expression span :: Tree.withLiteralsFor name value chosen later) =
          session.interpret (earlier ++ .assign name expression span :: later) := by
  constructor
  · intro environment tree chosen
    exact Tree.evaluate_withLiterals (fun _ _ => id) chosen tree
  · intro session before earlier name expression span value before_eq value_eq later chosen
    rw [interpret_append, interpret_append, before_eq, Outcome.andThen_done, Outcome.andThen_done,
      interpret_cons, interpret_cons]
    have executed := before.extends_execute (.assign name expression span)
    rw [Tree.binding?, value_eq] at executed
    rcases execute_eq : before.execute (.assign name expression span) with ⟨next, none | fault⟩
    · have bound : next.environment.get? name = some value := by
        rw [execute_eq] at executed
        rw [executed.environment_eq]
        exact (Environment.get?_bind _ _ _ _).trans (if_pos rfl)
      exact interpret_withLiteralsFor bound chosen later
    · rfl

/-- The name is replaced in the statement after the assignment, and in one of the two places in the
expression of the next assignment.  After that it stands for another value. -/
theorem interpret_after_assign_square :
    let span : Span := ⟨0, 1⟩
    let x : Tree := .reference "x" span
    let two : Tree := .number 2 ⟨7, 9⟩
    let first : Tree := .assign "x" (.number 2 span) span
    let session := fresh (.empty none)
    session.interpret [first, .print two span, .assign "x" (.operation x .multiply two span) span,
        .print x span] =
      session.interpret [first, .print x span, .assign "x" (.operation x .multiply x span) span,
        .print x span] := by
  intro span x two first session
  let chosen (i : Nat) : Choice := fun way =>
    if i = 0 ∨ way = [.value, .right] then some ⟨7, 9⟩ else none
  have same := interpret_after_assign.2 session session [] "x" (.number 2 span) span (.number 2) rfl
    rfl [.print x span, .assign "x" (.operation x .multiply x span) span, .print x span] chosen
  exact same

end Session

end PrintLang
