import PrintLang.Tree
import PrintLang.Environment

/-!
# Evaluation

An expression has a value in an environment: operands are evaluated from left to right and
before their operator, and the first fault is the result.

## Main Definitions

* `Tree.evaluate` — the value of a tree
* `Tree.evaluateThen` — its value after the operators that wait for it have been applied

## Design Notes

Operators of equal rank nest to the left as deep as there are of them.  Evaluation goes down
this spine by a tail call, with the operators passed on the way in a list of *steps*, and
nests only for right operands.  `evaluate_operation` shows that this is evaluation in order.
-/

namespace PrintLang

/-- What remains to be done with the value of an operand. -/
abbrev Step := Value → Except Fault Value

/-- Takes a value through steps in order, up to the first fault. -/
def Step.applyAll : List Step → Value → Except Fault Value
  | [], value => .ok value
  | step :: rest, value =>
    match step value with
    | .ok next => applyAll rest next
    | .error fault => .error fault

namespace Tree

/-- The value of a tree after the steps that wait for it.  Statements have no value. -/
def evaluateThen (environment : Environment) : Tree → List Step → Except Fault Value
  | operation left operator right span, steps =>
    let joinRight : Step := fun leftValue =>
      match right.evaluateThen environment [] with
      | .ok rightValue => operator.apply span leftValue rightValue
      | .error fault => .error fault
    left.evaluateThen environment (joinRight :: steps)
  | number value _, steps => Step.applyAll steps (.number value)
  | text value _, steps => Step.applyAll steps (.text value)
  | reference name span, steps =>
    match environment.get? name with
    | some value => Step.applyAll steps value
    | none => .error (.undefinedVariable span name)
  | assign _ _ span, _ => .error (.notAnExpression span)
  | print _ span, _ => .error (.notAnExpression span)

/-- The value of a tree in an environment. -/
def evaluate (environment : Environment) (tree : Tree) : Except Fault Value :=
  tree.evaluateThen environment []

/-! ### Trees without operands -/

@[simp] theorem evaluate_number (environment : Environment) (value : Float) (span : Span) :
    (number value span).evaluate environment = .ok (.number value) := rfl

@[simp] theorem evaluate_text (environment : Environment) (value : String) (span : Span) :
    (text value span).evaluate environment = .ok (.text value) := rfl

theorem evaluate_reference (environment : Environment) (name : String) (span : Span) :
    (reference name span).evaluate environment =
      match environment.get? name with
      | some value => .ok value
      | none => .error (.undefinedVariable span name) := by
  simp only [evaluate, evaluateThen]
  cases environment.get? name <;> rfl

@[simp] theorem evaluate_assign (environment : Environment) (name : String) (value : Tree)
    (span : Span) :
    (assign name value span).evaluate environment = .error (.notAnExpression span) := rfl

@[simp] theorem evaluate_print (environment : Environment) (value : Tree) (span : Span) :
    (print value span).evaluate environment = .error (.notAnExpression span) := rfl

/-! ### Evaluation in order -/

/-- The steps that wait for a tree are applied to its value. -/
theorem evaluateThen_eq_evaluate (environment : Environment) (tree : Tree) (steps : List Step) :
    tree.evaluateThen environment steps =
      match tree.evaluate environment with
      | .ok value => Step.applyAll steps value
      | .error fault => .error fault := by
  induction tree generalizing steps with
  | operation left operator right span ihLeft _ =>
    simp only [evaluate, evaluateThen]
    rw [ihLeft, ihLeft [_]]
    cases left.evaluate environment with
    | error fault => rfl
    | ok value =>
      simp only [Step.applyAll]
      cases right.evaluateThen environment [] with
      | error fault => rfl
      | ok other =>
        simp only
        cases operator.apply span value other <;> rfl
  | reference name span =>
    simp only [evaluate, evaluateThen]
    cases environment.get? name <;> rfl
  | _ => rfl

/-- An operation evaluates its left operand, then its right one, and applies the operator. -/
theorem evaluate_operation (environment : Environment) (left right : Tree)
    (operator : Operator) (span : Span) :
    (operation left operator right span).evaluate environment =
      match left.evaluate environment with
      | .error fault => .error fault
      | .ok leftValue =>
        match right.evaluate environment with
        | .error fault => .error fault
        | .ok rightValue => operator.apply span leftValue rightValue := by
  rw [evaluate, evaluateThen, evaluateThen_eq_evaluate]
  cases left.evaluate environment with
  | error fault => rfl
  | ok value =>
    simp only [Step.applyAll, evaluate]
    cases right.evaluateThen environment [] with
    | error fault => rfl
    | ok other =>
      simp only
      cases operator.apply span value other <;> rfl

end Tree

end PrintLang
