import PrintLang.Proofs.Execution
import PrintLang.Proofs.EvaluationOrder
import PrintLang.Proofs.Pieces

/-!
# Nested calls

Evaluation goes down the left spine of a tree in a loop.  It calls itself for the operand at the end
of the spine, and then, on the way back, for the right operand of every operator.  How deeply such
calls are nested does not depend on the length of a spine, but on how often one turns right on the
way from the root of a tree to a leaf.

The trees of source texts turn right twice at most: from a sum to one of its terms, and from a term
to one of its operands.  Trees that are made in other ways can turn right at every node.

## Main Definitions

* `Tree.evaluateWithin` — evaluation with a bound on the number of nested calls
* `Tree.calls` — the number of calls that are nested when a tree is evaluated
* `Tree.rightNested` — trees that need any number of calls

## Main Statements

* `Tree.evaluateWithin_eq` — a tree has its value if it may use the calls that it needs
* `Expression.calls_tree_le` — an expression needs three calls
* `Reads.evaluateWithin_three` — so do the statements of a program, but not all trees

## Design Notes

The definitions that evaluate trees are structural, so they tell nothing about nested calls.  The
bound makes these visible: it is handed on to every call, less one, and nothing else uses it up.
-/

namespace PrintLang

namespace Tree

/-! ## Evaluation with a bound -/

/-- Goes down the left spine of a tree.  The operators on the way wait, the innermost one first. -/
def descend : Tree → List Pending → Tree × List Pending
  | operation left operator right span, pending => left.descend (⟨operator, right, span⟩ :: pending)
  | tree, pending => (tree, pending)

/-- Applies the operators that wait, with a call for each of their right operands. -/
def applyAll (call : Tree → ExceptT Fault Option Value) :
    List Pending → Value → ExceptT Fault Option Value
  | [], value => pure value
  | pending :: rest, value => do
    let right ← call pending.right
    applyAll call rest (← pending.operator.apply pending.span value right)

/-- The value of a tree, if no more than some number of calls may be nested. -/
def evaluateWithin (environment : Environment) : Nat → Tree → ExceptT Fault Option Value
  | 0, _ => ExceptT.mk none
  | _ + 1, number value _ => pure (.number value)
  | _ + 1, text value _ => pure (.text value)
  | _ + 1, reference name span =>
    match environment.get? name with
    | some value => pure value
    | none => throw (.undefinedVariable span name)
  | _ + 1, assign _ _ span => throw (.notAnExpression span)
  | _ + 1, print _ span => throw (.notAnExpression span)
  | rest + 1, operation left operator right span => do
    let (first, pending) := (operation left operator right span).descend []
    let value ← evaluateWithin environment rest first
    applyAll (evaluateWithin environment rest) pending value

/-- The number of calls that are nested when a tree is evaluated, with the first one.  An operand
behind a fault is not evaluated. -/
def calls (environment : Environment) : Tree → Nat
  | operation left _ right _ =>
    match left.evaluate environment with
    | .ok _ => max (left.calls environment) (right.calls environment + 1)
    | .error _ => max (left.calls environment) 2
  | _ => 1

/-- A result that needs some number of nested calls, if it may have them. -/
def permit (needed allowed : Nat) (result : Except Fault Value) : ExceptT Fault Option Value :=
  ExceptT.mk (if needed ≤ allowed then some result else none)

variable (environment : Environment)

theorem calls_pos (tree : Tree) : 1 ≤ tree.calls environment := by
  induction tree with
  | operation left operator right span ihLeft _ =>
    rw [calls]
    cases left.evaluate environment with
    | ok value => exact Nat.le_trans ihLeft (Nat.le_max_left _ _)
    | error fault => exact Nat.le_trans ihLeft (Nat.le_max_left _ _)
  | number | text | reference | assign | print => exact Nat.le_refl 1

/-- An operation needs a call for its first operand. -/
theorem two_le_calls (left : Tree) (operator : Operator) (right : Tree) (span : Span) :
    2 ≤ (operation left operator right span).calls environment := by
  have one_le := right.calls_pos environment
  rw [calls]
  cases left.evaluate environment with
  | ok value => exact Nat.le_trans (Nat.succ_le_succ one_le) (Nat.le_max_right _ _)
  | error fault => exact Nat.le_max_right _ _

section

variable {environment} {needed allowed other more : Nat}

theorem permit_congr (same : needed ≤ allowed ↔ other ≤ more) (result : Except Fault Value) :
    permit needed allowed result = permit other more result := by
  simp only [permit, same]

theorem permit_of_le (enough : needed ≤ allowed) (result : Except Fault Value) :
    permit needed allowed result = ExceptT.mk (some result) := by
  rw [permit, if_pos enough]

theorem permit_of_lt (short : allowed < needed) (result : Except Fault Value) :
    permit needed allowed result = ExceptT.mk none := by
  rw [permit, if_neg (Nat.not_le_of_lt short)]

/-- After a fault, no further calls are needed. -/
theorem permit_error_bind (fault : Fault) (next : Value → ExceptT Fault Option Value) :
    permit needed allowed (.error fault) >>= next = permit needed allowed (.error fault) := by
  rw [permit]
  split <;> rfl

end

/-- The operators that wait for a tree are applied to its value, whether they wait already or are
met on the way down its spine. -/
theorem descend_bind {allowed : Nat}
    (ih : ∀ tree, evaluateWithin environment allowed tree =
      permit (tree.calls environment) allowed (tree.evaluate environment))
    (tree : Tree) (pending : List Pending) :
    (evaluateWithin environment allowed (tree.descend pending).1 >>=
        applyAll (evaluateWithin environment allowed) (tree.descend pending).2) =
      permit (max 2 (tree.calls environment)) (allowed + 1) (tree.evaluate environment) >>=
        applyAll (evaluateWithin environment allowed) pending := by
  induction tree generalizing pending with
  | operation left operator right span ihLeft _ =>
    rw [descend, ihLeft, calls, evaluate_operation]
    cases left.evaluate environment with
    | error fault =>
      rw [permit_error_bind, permit_error_bind]
      exact permit_congr (by simp only; omega) _
    | ok value =>
      by_cases leftFits : max 2 (left.calls environment) ≤ allowed + 1
      case neg =>
        rw [permit_of_lt (by omega), permit_of_lt (by simp only; omega)]
        rfl
      rw [permit_of_le leftFits]
      show (evaluateWithin environment allowed right >>= _) = _
      rw [ih]
      by_cases rightFits : right.calls environment ≤ allowed
      case neg =>
        rw [permit_of_lt (by omega), permit_of_lt (by simp only; omega)]
        rfl
      rw [permit_of_le rightFits, permit_of_le (by simp only; omega)]
      cases right.evaluate environment with
      | error fault => rfl
      | ok other => rfl
  | number | text | reference | assign | print =>
    rw [descend, ih]
    · congr 1
      exact permit_congr (by simp only [calls]; omega) _
    · simp

/-- A tree has its value if calls may be nested as deeply as it needs, and no result otherwise. -/
theorem evaluateWithin_eq (allowed : Nat) (tree : Tree) :
    evaluateWithin environment allowed tree =
      permit (tree.calls environment) allowed (tree.evaluate environment) := by
  induction allowed generalizing tree with
  | zero =>
    rw [permit_of_lt (tree.calls_pos environment)]
    rfl
  | succ allowed ih =>
    cases tree with
    | operation left operator right span =>
      have two_le := two_le_calls environment left operator right span
      set tree := operation left operator right span with tree_eq
      calc evaluateWithin environment (allowed + 1) tree
        _ = evaluateWithin environment allowed (tree.descend []).1 >>=
              applyAll (evaluateWithin environment allowed) (tree.descend []).2 := rfl
        _ = permit (max 2 (tree.calls environment)) (allowed + 1) (tree.evaluate environment) >>=
              pure := descend_bind environment ih tree []
        _ = permit (max 2 (tree.calls environment)) (allowed + 1) (tree.evaluate environment) :=
              bind_pure _
        _ = permit (tree.calls environment) (allowed + 1) (tree.evaluate environment) :=
              permit_congr (by rw [Nat.max_eq_right two_le]) _
    | reference name span =>
      have fits : (reference name span).calls environment ≤ allowed + 1 := Nat.le_add_left 1 allowed
      rw [permit_of_le fits, evaluateWithin, evaluate_reference]
      cases environment.get? name <;> rfl
    | number | text | assign | print => exact (permit_of_le (Nat.le_add_left 1 allowed) _).symm

/-! ## Bounds -/

theorem calls_operation_le (left : Tree) (operator : Operator) (right : Tree) (span : Span) :
    (operation left operator right span).calls environment ≤
      max (left.calls environment) (right.calls environment + 1) := by
  have one_le := right.calls_pos environment
  rw [calls]
  cases left.evaluate environment with
  | ok value => exact Nat.le_refl _
  | error fault => simp only; omega

/-- Texts that are joined from the right to the left. -/
def rightNested : Nat → Tree
  | 0 => text "" ⟨0, 0⟩
  | depth + 1 => operation (text "" ⟨0, 0⟩) .add (rightNested depth) ⟨0, 0⟩

theorem calls_rightNested (depth : Nat) : (rightNested depth).calls environment = depth + 1 := by
  induction depth with
  | zero => rfl
  | succ depth ih =>
    rw [rightNested, calls, evaluate_text, ih]
    exact Nat.max_eq_right (Nat.le_add_left 1 (depth + 1))

end Tree

section

variable (environment : Environment)

/-- Only the items of a chain are evaluated by calls of their own. -/
theorem Chain.calls_treeBy_le {rank : Grammar.Rank} {α : Type} {tree : α → Tree} {bound : Nat}
    (items : ∀ a, (tree a).calls environment ≤ bound) (chain : Chain rank α) :
    (chain.treeBy tree).calls environment ≤ bound + 1 := by
  induction chain using Chain.pushInduction with
  | single first =>
    rw [treeBy_single]
    exact Nat.le_succ_of_le (items first)
  | push chain sign next ih =>
    rw [treeBy_push]
    have step := Tree.calls_operation_le environment (chain.treeBy tree) sign.operator (tree next)
      ⟨(chain.treeBy tree).span.start, (tree next).span.stop⟩
    have item := items next
    exact Nat.le_trans step (Nat.max_le.mpr ⟨ih, Nat.succ_le_succ item⟩)

/-- The calls for an expression, for its terms and for their operands. -/
theorem Expression.calls_tree_le (expression : Expression) :
    expression.tree.calls environment ≤ 3 := by
  have operands (operand : Operand) : operand.tree.calls environment ≤ 1 := by
    cases operand <;> exact Nat.le_refl 1
  exact Chain.calls_treeBy_le environment (Chain.calls_treeBy_le environment operands) expression

end

theorem Statement.subject_tree (statement : Statement) :
    statement.tree.subject = statement.value.tree := by
  simp only [tree]
  cases statement.heading <;> rfl

/-- The expressions of a program are evaluated with three nested calls, however long they are, and
the result is that of evaluation without a bound.  No number of calls does for all trees: with fewer
calls than a tree needs there is no result, and there are trees that need any number of them. -/
theorem Reads.evaluateWithin_three {source : String} {statements : List Tree}
    (reads : Reads source statements) (environment : Environment) :
    (∀ statement ∈ statements, (statement.subject.evaluateWithin environment 3).run =
      some (statement.subject.evaluate environment)) ∧
    (∀ tree allowed, (Tree.evaluateWithin environment allowed tree).run =
      if tree.calls environment ≤ allowed then some (tree.evaluate environment) else none) ∧
    ∀ depth, (Tree.evaluateWithin environment depth (Tree.rightNested depth)).run = none ∧
      (Tree.evaluateWithin environment (depth + 1) (Tree.rightNested depth)).run =
        some ((Tree.rightNested depth).evaluate environment) := by
  have within (tree : Tree) (allowed : Nat) : (Tree.evaluateWithin environment allowed tree).run =
      if tree.calls environment ≤ allowed then some (tree.evaluate environment) else none := by
    rw [Tree.evaluateWithin_eq]
    rfl
  refine ⟨?_, within, fun depth => ⟨?_, ?_⟩⟩
  · obtain ⟨scan, -, accepted⟩ := reads
    obtain ⟨program, -, rfl⟩ := Tree.exists_derivation_of_ofTokens accepted
    rw [List.forall_mem_map]
    intro statement _
    rw [within, statement.subject_tree, if_pos (statement.value.calls_tree_le environment)]
  · rw [within, Tree.calls_rightNested, if_neg (Nat.not_succ_le_self depth)]
  · rw [within, Tree.calls_rightNested, if_pos (Nat.le_refl _)]

/-- A sum of a text and a product takes three calls and not fewer. -/
theorem Reads.evaluateWithin_three_sum :
    let product := Tree.operation (.text "b" ⟨10, 13⟩) .multiply (.text "c" ⟨14, 17⟩) ⟨10, 17⟩
    let sum := Tree.operation (.text "a" ⟨6, 9⟩) .add product ⟨6, 17⟩
    Reads "print \"a\"+\"b\"*\"c\";" [.print sum ⟨0, 18⟩] ∧
      (sum.evaluateWithin .empty 3).run = some (sum.evaluate .empty) ∧
      (sum.evaluateWithin .empty 2).run = none := by
  intro product sum
  have reads : Reads "print \"a\"+\"b\"*\"c\";" [.print sum ⟨0, 18⟩] := ⟨_, rfl, rfl⟩
  obtain ⟨three, within, -⟩ := reads.evaluateWithin_three .empty
  refine ⟨reads, three _ List.mem_cons_self, ?_⟩
  rw [within sum 2]
  exact if_neg (by decide)

end PrintLang
