import PrintLang.Proofs.EvaluationOrder

/-!
# Chains of additions

What a plus sign means depends on everything to its left: numbers are added up to the first text,
and from there on texts are joined.  The numbers before the first text are summed before they are
shown, and those after it are shown one by one.

Two values can always be added, so a chain fails only where one of its operands does, and the value
of a chain is a fold over the values of its operands.  The fold keeps to numbers until it meets a
text, and after that it keeps to texts.  These are the two modes, and each of them has its closed
form.

## Main Definitions

* `Tree.plusChain` — operands with plus signs between them
* `Value.plus` — the sum of two values
* `Number.total`, `Number.totalText` — a sum from left to right, and its text before a text

## Main Statements

* `Tree.evaluate_plusChain_eq` — the value of a chain is a fold over those of its operands
* `Tree.fault?_plusChain` — its fault is that of the first operand that fails
* `Tree.evaluate_plusChain` — these together, with the fold in closed form
-/

namespace PrintLang

/-! ## Adding values -/

namespace Value

/-- The sum of two numbers, or else the texts of both values joined. -/
def plus : Value → Value → Value
  | number left, number right => .number (left + right)
  | left, right => .text (left.display ++ right.display)

theorem text_plus (text : String) (value : Value) :
    (Value.text text).plus value = .text (text ++ value.display) := by
  cases value <;> rfl

theorem plus_text (value : Value) (text : String) :
    value.plus (.text text) = .text (value.display ++ text) := by
  cases value <;> rfl

end Value

/-- Addition takes all values. -/
theorem Operator.apply_add (span : Span) (left right : Value) :
    add.apply span left right = .ok (left.plus right) := by
  cases left <;> cases right <;> rfl

namespace Number

/-- The sum of numbers from left to right. -/
def total (first : Float) (others : List Float) : Float :=
  others.foldl (· + ·) first

/-- The text of the sum of the numbers before a text; there may be none. -/
def totalText : List Float → String
  | [] => ""
  | first :: others => canonicalText (total first others)

end Number

namespace Value

/-- As long as there is no text, numbers are added. -/
theorem foldl_plus_numbers (first : Float) (others : List Float) :
    (others.map number).foldl plus (.number first) = .number (Number.total first others) := by
  induction others generalizing first with
  | nil => rfl
  | cons next others ih => exact ih (first + next)

/-- From the first text on, texts are joined. -/
theorem foldl_plus_text (text : String) (values : List Value) :
    values.foldl plus (.text text) = .text (text ++ String.join (values.map display)) := by
  induction values generalizing text with
  | nil => rw [List.map_nil, String.join_nil, String.append_empty, List.foldl_nil]
  | cons value values ih =>
    rw [List.foldl_cons, text_plus, ih, List.map_cons, String.join_cons, String.append_assoc]

/-- Values are all numbers, or there is a first text among them. -/
theorem exists_numbers_or_text (values : List Value) :
    (∃ numbers : List Float, values = numbers.map number) ∨
      ∃ (numbers : List Float) (first : String) (later : List Value),
        values = numbers.map number ++ .text first :: later := by
  induction values with
  | nil => exact Or.inl ⟨[], rfl⟩
  | cons value values ih =>
    cases value with
    | text first => exact Or.inr ⟨[], first, values, rfl⟩
    | number x =>
      rcases ih with ⟨numbers, rfl⟩ | ⟨numbers, first, later, rfl⟩
      · exact Or.inl ⟨x :: numbers, rfl⟩
      · exact Or.inr ⟨x :: numbers, first, later, rfl⟩

/-- The first text is joined to the text of the sum of the numbers before it. -/
theorem foldl_plus_first_text {value : Value} {values : List Value} {numbers : List Float}
    {first : String} {later : List Value}
    (values_eq : value :: values = numbers.map number ++ .text first :: later) :
    values.foldl plus value =
      .text (Number.totalText numbers ++ first ++ String.join (later.map display)) := by
  cases numbers with
  | nil =>
    obtain ⟨rfl, rfl⟩ := List.cons.inj values_eq
    rw [foldl_plus_text, Number.totalText, String.empty_append]
  | cons x more =>
    obtain ⟨rfl, rfl⟩ := List.cons.inj values_eq
    rw [List.append_eq, List.foldl_append, foldl_plus_numbers, List.foldl_cons, plus_text,
      foldl_plus_text]
    rfl

end Value

/-! ## Evaluating a chain -/

namespace Tree

/-- Operands with plus signs between them, from left to right.  With every operand but the first
one comes the span of the addition that it completes. -/
def plusChain (first : Tree) (others : List (Tree × Span)) : Tree :=
  others.foldl (fun left (right, span) => .operation left .add right span) first

theorem plusChain_cons (first right : Tree) (span : Span) (others : List (Tree × Span)) :
    first.plusChain ((right, span) :: others) =
      (operation first .add right span).plusChain others := rfl

variable {environment : Environment}

/-- The value of a chain whose operands have values. -/
theorem evaluate_plusChain_eq {first : Tree} {others : List (Tree × Span)} {value : Value}
    {values : List Value} (first_eq : first.evaluate environment = .ok value)
    (others_eq : (others.map Prod.fst).map (evaluate environment) = values.map .ok) :
    (first.plusChain others).evaluate environment = .ok (values.foldl Value.plus value) := by
  induction others generalizing first value values with
  | nil =>
    obtain rfl := List.map_eq_nil_iff.mp others_eq.symm
    exact first_eq
  | cons next others ih =>
    obtain ⟨right, span⟩ := next
    obtain ⟨rightValue, values, rfl, right_eq, others_eq⟩ := List.map_eq_cons_iff.mp others_eq.symm
    have sum_eq : (operation first .add right span).evaluate environment =
        .ok (value.plus rightValue) := by
      rw [evaluate_operation, first_eq, ← right_eq]
      exact Operator.apply_add span value rightValue
    rw [plusChain_cons, List.foldl_cons]
    exact ih sum_eq others_eq.symm

variable (environment)

/-- An addition fails only if one of its operands does. -/
theorem fault?_add (left right : Tree) (span : Span) :
    (operation left .add right span).fault? environment =
      (left.fault? environment).or (right.fault? environment) := by
  unfold fault?
  rw [denote]
  cases left.denote environment with
  | error fault => rfl
  | ok leftValue =>
    cases right.denote environment with
    | error fault => rfl
    | ok rightValue =>
      dsimp only
      rw [Operator.apply_add]
      rfl

/-- The fault of a chain is that of the first operand that fails. -/
theorem fault?_plusChain (first : Tree) (others : List (Tree × Span)) :
    (first.plusChain others).fault? environment =
      (first :: others.map Prod.fst).findSome? (fault? environment) := by
  induction others generalizing first with
  | nil => exact List.findSome?_singleton.symm
  | cons next others ih =>
    obtain ⟨right, span⟩ := next
    -- The first two operands are one operand of the rest of the chain.
    rw [plusChain_cons, ih, List.findSome?_cons, fault?_add, List.map_cons, List.findSome?_cons,
      List.findSome?_cons]
    cases first.fault? environment <;> rfl

/-- **A chain of additions adds up to the first text and joins texts from there on.**

Operands of any kind are joined by plus signs from left to right.  If all of them have values, the
chain has one as well.  It is the sum of the values from left to right if all of them are numbers.
Otherwise it is a text: the text of the sum of the numbers before the first text, or nothing if the
first text is the first value, and then the texts of this and of all later values.  If an operand
has no value, the fault is the one of the first such operand, and there are no other faults. -/
theorem evaluate_plusChain (first : Tree) (others : List (Tree × Span)) :
    let operands := first :: others.map Prod.fst
    let chain := first.plusChain others
    (∀ values : List Value, operands.map (evaluate environment) = values.map .ok →
      (∀ x more, values = (x :: more).map .number →
        chain.evaluate environment = .ok (.number (Number.total x more))) ∧
      (∀ numbers text later, values = numbers.map .number ++ .text text :: later →
        chain.evaluate environment = .ok (.text (Number.totalText numbers ++ text ++
          String.join (later.map Value.display)))) ∧
      ((∃ text, chain.evaluate environment = .ok (.text text)) ↔ ∃ text, .text text ∈ values)) ∧
    ∀ fault, chain.evaluate environment = .error fault ↔
      ∃ before operand after, operands = before ++ operand :: after ∧
        operand.evaluate environment = .error fault ∧
        ∀ earlier ∈ before, ∃ value, earlier.evaluate environment = .ok value := by
  intro operands chain
  constructor
  · intro values values_eq
    obtain ⟨value, values, rfl, first_eq, others_eq⟩ := List.map_eq_cons_iff.mp values_eq.symm
    have chain_eq : chain.evaluate environment = .ok (values.foldl Value.plus value) :=
      evaluate_plusChain_eq first_eq.symm others_eq.symm
    refine ⟨fun x more all_eq => ?_, fun numbers text later all_eq => ?_, ?_⟩
    · obtain ⟨rfl, rfl⟩ := List.cons.inj all_eq
      rw [chain_eq, Value.foldl_plus_numbers]
    · rw [chain_eq, Value.foldl_plus_first_text all_eq]
    · rcases Value.exists_numbers_or_text (value :: values) with
        ⟨numbers, all_eq⟩ | ⟨numbers, text, later, all_eq⟩
      · obtain ⟨x, more, rfl, rfl, rfl⟩ := List.map_eq_cons_iff.mp all_eq.symm
        rw [chain_eq, Value.foldl_plus_numbers, all_eq]
        simp
      · rw [chain_eq, Value.foldl_plus_first_text all_eq, all_eq]
        simp
  · intro fault
    rw [evaluate_eq_denote, ← fault?_eq_some_iff, fault?_plusChain, List.findSome?_eq_some_iff]
    simp only [evaluate_eq_denote, fault?_eq_some_iff, fault?_eq_none_iff]
    rfl

/-- The numbers before the text are added, and those after it are not. -/
theorem evaluate_plusChain_text_between :
    let span : Span := ⟨0, 1⟩
    let others : List (Tree × Span) :=
      [(.reference "x" span, span), (.text "a" span, span), (.number 3 span, span),
        (.number 4 span, span)]
    let environment := Environment.empty.bind "x" (.number 2)
    ((Tree.number 1 span).plusChain others).evaluate environment = .ok (.text "3.0a3.04.0") := by
  intro span others environment
  have values_eq : ((Tree.number 1 span) :: others.map Prod.fst).map (evaluate environment) =
      [Value.number 1, .number 2, .text "a", .number 3, .number 4].map .ok := by
    simp [others, environment, evaluate_reference, Environment.get?_bind]
  have chain_eq := ((evaluate_plusChain environment (.number 1 span) others).1 _ values_eq).2.1
    [1, 2] "a" [.number 3, .number 4] rfl
  have text_eq : Number.totalText [1, 2] ++ "a" ++
      String.join ([Value.number 3, .number 4].map Value.display) = "3.0a3.04.0" := by
    decide +kernel
  rw [chain_eq, text_eq]

end Tree

end PrintLang
