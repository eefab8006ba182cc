import PrintLang.Evaluation

/-!
# The order of evaluation

The value of an expression is usually given by recursion over the tree: the left operand, then
the right one, then the operator.  Evaluation does not recurse into left operands; it carries
the operators on the way to the first operand along and applies them on the way back.  Both
come to the same value or fault.

The invariant is about the operators that wait.  Each of them waits together with its own
right operand and its own span, so that a tree and what waits for it are a larger tree with
the first one at its left end.  Evaluating the first while the others wait is evaluating the
larger tree.

A fault is one of the nodes of the tree: the first one that fails when the operands of an
operator are visited before it and from left to right.

## Main Definitions

* `Tree.denote` — the value of a tree, by recursion
* `Pending`, `Tree.under` — operators that wait for a tree, and the tree they make with it
* `Tree.visits` — the nodes of a tree in the order of their evaluation

## Main Statements

* `Tree.evaluate_eq_denote` — evaluation agrees with the recursion
* `Tree.evaluateThen_pending` — so it does for a tree for which operators wait
* `Tree.findSome?_visits` — the fault is that of the first node that fails
* `Tree.evaluation_in_order` — these together
-/

namespace PrintLang

/-- An operator that waits for the value of its left operand. -/
structure Pending where
  /-- The operator that waits. -/
  operator : Operator
  /-- Its right operand. -/
  right : Tree
  /-- The span of the operation. -/
  span : Span

/-- What an operator that waits does with the value of its left operand. -/
def Pending.step (environment : Environment) (pending : Pending) : Step := fun leftValue =>
  match pending.right.evaluate environment with
  | .ok rightValue => pending.operator.apply pending.span leftValue rightValue
  | .error fault => .error fault

namespace Tree

/-- The value of a tree by recursion: an operation has the value of its operator on the values
of its operands, and the left one is evaluated first. -/
def denote (environment : Environment) : Tree → Except Fault Value
  | number value _ => .ok (.number value)
  | text value _ => .ok (.text value)
  | reference name span =>
    match environment.get? name with
    | some value => .ok value
    | none => .error (.undefinedVariable span name)
  | assign _ _ span => .error (.notAnExpression span)
  | print _ span => .error (.notAnExpression span)
  | operation left operator right span =>
    match left.denote environment with
    | .error fault => .error fault
    | .ok leftValue =>
      match right.denote environment with
      | .error fault => .error fault
      | .ok rightValue => operator.apply span leftValue rightValue

/-- The tree with the operations that wait for it around it, the first one innermost. -/
def under (tree : Tree) (pending : List Pending) : Tree :=
  pending.foldl
    (fun left pending => .operation left pending.operator pending.right pending.span) tree

/-- The nodes of a tree in the order of their evaluation.  What a statement in the place of an
operand contains is not evaluated. -/
def visits : Tree → List Tree
  | operation left operator right span =>
    left.visits ++ right.visits ++ [operation left operator right span]
  | tree => [tree]

/-- A tree is a node of itself. -/
theorem mem_visits_self (tree : Tree) : tree ∈ tree.visits := by
  cases tree <;> simp [visits]

/-- The fault of a tree, if it has no value. -/
def fault? (environment : Environment) (tree : Tree) : Option Fault :=
  match tree.denote environment with
  | .ok _ => none
  | .error fault => some fault

variable (environment : Environment)

/-! ## Agreement with the recursion -/

theorem evaluate_eq_denote (tree : Tree) : tree.evaluate environment = tree.denote environment := by
  induction tree with
  | number | text | assign | print => rfl
  | reference name span => exact evaluate_reference environment name span
  | operation left operator right span ihLeft ihRight =>
    rw [evaluate_operation, ihLeft, ihRight]
    rfl

/-- A tree for which operators wait has the value of the tree that it makes with them. -/
theorem evaluateThen_pending (tree : Tree) (pending : List Pending) :
    tree.evaluateThen environment (pending.map (Pending.step environment)) =
      (tree.under pending).denote environment := by
  induction pending generalizing tree with
  | nil => exact evaluate_eq_denote environment tree
  | cons first pending ih =>
    -- The innermost operator and its operands are what the others wait for.
    exact ih (.operation tree first.operator first.right first.span)

/-! ## The first fault -/

theorem fault?_eq_some_iff {tree : Tree} {fault : Fault} :
    tree.fault? environment = some fault ↔ tree.denote environment = .error fault := by
  unfold fault?
  cases tree.denote environment <;> simp

theorem fault?_eq_none_iff {tree : Tree} :
    tree.fault? environment = none ↔ ∃ value, tree.denote environment = .ok value := by
  unfold fault?
  cases tree.denote environment <;> simp

/-- A tree with operands fails with the first fault of the left one, else with that of the
right one, else with that of its operator. -/
theorem fault?_operation (left right : Tree) (operator : Operator) (span : Span) :
    ((left.fault? environment).or (right.fault? environment)).or
        ((operation left operator right span).fault? environment) =
      (operation left operator right span).fault? environment := by
  unfold fault?
  rw [denote]
  cases left.denote environment with
  | error fault => rfl
  | ok leftValue =>
    cases right.denote environment with
    | error fault => rfl
    | ok rightValue => rfl

/-- A tree fails with the fault of the first of its nodes that fails. -/
theorem findSome?_visits (tree : Tree) :
    tree.visits.findSome? (fault? environment) = tree.fault? environment := by
  induction tree with
  | operation left operator right span ihLeft ihRight =>
    rw [visits, List.findSome?_append, List.findSome?_append, ihLeft, ihRight,
      List.findSome?_singleton]
    exact fault?_operation environment left right operator span
  | number | text | reference | assign | print => exact List.findSome?_singleton

/-- Evaluation comes to what the recursion over the tree gives, also for a tree for which
operators wait, and a fault is that of the first node that fails. -/
theorem evaluation_in_order (tree : Tree) :
    tree.evaluate environment = tree.denote environment ∧
      (∀ pending, tree.evaluateThen environment (pending.map (Pending.step environment)) =
        (tree.under pending).denote environment) ∧
      ∀ fault, tree.evaluate environment = .error fault ↔
        ∃ before node after, tree.visits = before ++ node :: after ∧
          node.denote environment = .error fault ∧
          ∀ earlier ∈ before, ∃ value, earlier.denote environment = .ok value := by
  refine ⟨evaluate_eq_denote environment tree, evaluateThen_pending environment tree, ?_⟩
  intro fault
  rw [evaluate_eq_denote, ← fault?_eq_some_iff, ← findSome?_visits, List.findSome?_eq_some_iff]
  simp only [fault?_eq_some_iff, fault?_eq_none_iff]

end Tree

end PrintLang
