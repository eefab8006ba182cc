import PrintLang.Proofs.Execution

/-!
# Relocation

Spans say where something was found and nothing else.  If all starts and all stops in a list
of tokens are moved, the tokens are read in the same way, and the trees come out with their
starts and stops moved alike.  Such trees have the same values and run with the same effects.
What changes is the span of the fault, if there is one.

The starts and the stops are moved by two functions of their own, since a span is only ever
put together from the start of one token and the stop of another.

## Main Definitions

* `Relocation` — where starts and stops are moved to
* `relocate` — tokens, trees, places in the grammar, faults and outcomes with moved spans
* `Reader.relocate` — a reader that has read moved tokens, after other statements

## Main Statements

* `Place.step_relocate`, `Reader.feed_relocate` — reading moved tokens
* `Tree.evaluate_relocate`, `Session.interpret_relocate` — running moved trees
-/

namespace PrintLang

/-- Where the starts and the stops of spans are moved to. -/
structure Relocation where
  /-- The new start of a span that starts at a position. -/
  start : Nat → Nat
  /-- The new stop of a span that stops before a position. -/
  stop : Nat → Nat

namespace Relocation

/-- Moves all spans to the right. -/
def shift (count : Nat) : Relocation :=
  ⟨(· + count), (· + count)⟩

end Relocation

/-! ## What is moved -/

section Relocate

variable (relocation : Relocation)

/-- The span with its start and its stop moved. -/
def Span.relocate (span : Span) : Span :=
  ⟨relocation.start span.start, relocation.stop span.stop⟩

/-- The token with its span moved. -/
def Token.relocate (token : Token) : Token :=
  { token with span := token.span.relocate relocation }

/-- The tree with all its spans moved. -/
def Tree.relocate : Tree → Tree
  | assign name value span => assign name value.relocate (span.relocate relocation)
  | print value span => print value.relocate (span.relocate relocation)
  | operation left operator right span =>
    operation left.relocate operator right.relocate (span.relocate relocation)
  | number value span => number value (span.relocate relocation)
  | text value span => text value (span.relocate relocation)
  | reference name span => reference name (span.relocate relocation)

/-- The opening with its start moved. -/
def Opening.relocate : Opening → Opening
  | declaration start name => declaration (relocation.start start) name
  | assignment start name => assignment (relocation.start start) name
  | print start => print (relocation.start start)

/-- The operand that waits, with its spans moved. -/
def relocateWaiting : Option (Tree × Operator) → Option (Tree × Operator) :=
  Option.map fun (tree, operator) => (tree.relocate relocation, operator)

/-- The place with the spans of what has been read moved. -/
def Place.relocate : Place → Place
  | start => start
  | afterName name => afterName (name.relocate relocation)
  | afterVar first => afterVar (relocation.start first)
  | afterVarName first name => afterVarName (relocation.start first) name
  | operand opening waiting =>
    operand (opening.relocate relocation)
      ⟨relocateWaiting relocation waiting.sum, relocateWaiting relocation waiting.product⟩
  | operator opening sum term =>
    operator (opening.relocate relocation) (relocateWaiting relocation sum)
      (term.relocate relocation)

/-- The fault with its span moved. -/
def Fault.relocate (fault : Fault) : Fault :=
  { fault with span := fault.span.relocate relocation }

/-- The outcome with the span of its fault moved. -/
def Outcome.relocate (outcome : Outcome) : Outcome :=
  { outcome with fault := outcome.fault.map (Fault.relocate relocation) }

/-- A result that is moved by a function, or a fault with its span moved. -/
def Relocation.result {α β : Type} (move : α → β) : Except Fault α → Except Fault β
  | .ok value => .ok (move value)
  | .error fault => .error (fault.relocate relocation)

end Relocate

variable (relocation : Relocation)

theorem Tree.span_relocate (tree : Tree) :
    (tree.relocate relocation).span = tree.span.relocate relocation := by
  cases tree <;> rfl

theorem Fault.relocate_shift_relocate_shift (fault : Fault) (first second : Nat) :
    (fault.relocate (.shift first)).relocate (.shift second) =
      fault.relocate (.shift (first + second)) := by
  simp only [relocate, Span.relocate, Relocation.shift, Nat.add_assoc]

theorem Token.relocate_shift_comm (token : Token) (first second : Nat) :
    (token.relocate (.shift first)).relocate (.shift second) =
      (token.relocate (.shift second)).relocate (.shift first) := by
  simp only [relocate, Span.relocate, Relocation.shift, Nat.add_right_comm]

/-! ## Reading -/

theorem join_relocate (waiting : Option (Tree × Operator)) (right : Tree) :
    join (relocateWaiting relocation waiting) (right.relocate relocation) =
      (join waiting right).relocate relocation := by
  cases waiting with
  | none => rfl
  | some left =>
    simp only [relocateWaiting, Option.map_some, join, Tree.joined, Tree.span_relocate]
    rfl

theorem Opening.statement_relocate (opening : Opening) (value : Tree) (stop : Nat) :
    (opening.relocate relocation).statement (value.relocate relocation) (relocation.stop stop) =
      (opening.statement value stop).relocate relocation := by
  cases opening <;> rfl

namespace Place

theorem refuse_relocate (place : Place) (token : Token) :
    (place.relocate relocation).refuse (token.relocate relocation) =
      (place.refuse token).relocate relocation := by
  cases place with
  | operator opening sum term => cases opening <;> rfl
  | start | afterName | afterVar | afterVarName | operand => rfl

theorem leaf?_relocate (token : Token) :
    leaf? (token.relocate relocation) =
      relocation.result (Option.map (Tree.relocate relocation)) (leaf? token) := by
  obtain ⟨kind, lexeme, span⟩ := token
  cases kind with
  | number =>
    simp only [leaf?, Token.relocate]
    cases Number.ofNumeral? lexeme <;> rfl
  | _ => rfl

/-- A moved token leads to the moved place and completes the moved statement. -/
theorem step_relocate (place : Place) (token : Token) :
    (place.relocate relocation).step (token.relocate relocation) =
      relocation.result
        (Prod.map (Place.relocate relocation) (Option.map (Tree.relocate relocation)))
        (place.step token) := by
  cases place with
  | start | afterName | afterVar | afterVarName =>
    -- Nothing is joined yet: a token is put away, or refused at its own span.
    obtain ⟨kind, lexeme, span⟩ := token
    cases kind <;> rfl
  | operand opening waiting =>
    have leaf_eq := leaf?_relocate relocation token
    have refuse_eq := refuse_relocate relocation (operand opening waiting) token
    simp only [Place.relocate] at refuse_eq
    simp only [step, Place.relocate, leaf_eq]
    cases leaf? token with
    | error fault => rfl
    | ok leaf =>
      cases leaf with
      | none => exact congrArg Except.error refuse_eq
      | some leaf =>
        simp only [Relocation.result, Option.map_some, afterOperand, join_relocate]
        rfl
  | operator opening sum term =>
    have refuse_eq := refuse_relocate relocation (operator opening sum term) token
    obtain ⟨kind, lexeme, span⟩ := token
    cases kind with
    | plus | minus =>
      simp only [step, Place.relocate, join_relocate, Token.relocate]
      rfl
    | semicolon =>
      simp only [step, Place.relocate, join_relocate, Token.relocate]
      have made := opening.statement_relocate relocation (join sum term) span.stop
      simp only [Relocation.result, Prod.map, Option.map_some, ← made]
      rfl
    | star | slash => rfl
    | _ => exact congrArg Except.error refuse_eq

end Place

/-- The reader after other statements, with the spans of what it has read moved. -/
def Reader.relocate (before : Array Tree) (reader : Reader) : Reader where
  place := reader.place.relocate relocation
  statements := before ++ reader.statements.map (Tree.relocate relocation)
  stop := relocation.stop reader.stop

namespace Reader

variable (before : Array Tree)

/-- A moved token leads a moved reader to where the token leads the reader, or is refused at the
moved span. -/
theorem step_relocate (reader : Reader) (token : Token) :
    (reader.relocate relocation before).step (token.relocate relocation) =
      relocation.result (Reader.relocate relocation before) (reader.step token) := by
  have moved := Place.step_relocate relocation reader.place token
  unfold Reader.step
  rw [show (reader.relocate relocation before).place = reader.place.relocate relocation from rfl,
    moved]
  cases reader.place.step token with
  | error fault => rfl
  | ok result =>
    obtain ⟨place, completed⟩ := result
    cases completed with
    | none => rfl
    | some statement => simp [Relocation.result, relocate, Token.relocate, Span.relocate]

/-- Reading moved tokens is reading the tokens, with all spans moved. -/
theorem feed_relocate (reader : Reader) (tokens : List Token) :
    (reader.relocate relocation before).feed (tokens.map (Token.relocate relocation)) =
      relocation.result (Reader.relocate relocation before) (reader.feed tokens) := by
  induction tokens generalizing reader with
  | nil => rfl
  | cons token rest ih =>
    rw [List.map_cons, feed, feed, step_relocate]
    cases reader.step token with
    | error fault => rfl
    | ok next => exact ih next

end Reader

/-! ## Running -/

theorem Operator.apply_relocate (operator : Operator) (span : Span) (left right : Value) :
    operator.apply (span.relocate relocation) left right =
      relocation.result id (operator.apply span left right) := by
  cases left with
  | text left => cases operator <;> rfl
  | number left =>
    cases right with
    | text right => cases operator <;> rfl
    | number right =>
      cases operator with
      | add | subtract | multiply => rfl
      | divide =>
        unfold Operator.apply
        dsimp only
        split <;> rfl

/-- A moved tree has the same value, or the same fault at the moved span. -/
theorem Tree.evaluate_relocate (environment : Environment) (tree : Tree) :
    (tree.relocate relocation).evaluate environment =
      relocation.result id (tree.evaluate environment) := by
  induction tree with
  | number | text | assign | print => rfl
  | reference name span =>
    rw [relocate, evaluate_reference, evaluate_reference]
    cases environment.get? name <;> rfl
  | operation left operator right span ihLeft ihRight =>
    rw [relocate, evaluate_operation, evaluate_operation, ihLeft, ihRight]
    cases left.evaluate environment with
    | error fault => rfl
    | ok leftValue =>
      cases right.evaluate environment with
      | error fault => rfl
      | ok rightValue =>
        exact Operator.apply_relocate relocation operator span leftValue rightValue

theorem Tree.subject_relocate (statement : Tree) :
    (statement.relocate relocation).subject = statement.subject.relocate relocation := by
  cases statement <;> rfl

theorem Outcome.andThen_relocate (outcome : Outcome) (next : Session → Outcome) :
    (outcome.andThen next).relocate relocation =
      (outcome.relocate relocation).andThen fun session => (next session).relocate relocation := by
  obtain ⟨session, fault⟩ := outcome
  cases fault <;> rfl

namespace Session

theorem emit_relocate (session : Session) (span : Span) (line : String) :
    session.emit (span.relocate relocation) line =
      (session.emit span line).relocate relocation := by
  unfold emit
  rcases session.sink.write line with ⟨sink, refusal⟩
  cases refusal <;> rfl

theorem act_relocate (session : Session) (statement : Tree) (value : Value) :
    session.act (statement.relocate relocation) value =
      (session.act statement value).relocate relocation := by
  cases statement with
  | assign | print => exact emit_relocate relocation _ _ _
  | number | text | reference | operation => rfl

theorem withValue_relocate (session : Session) (tree : Tree) {next moved : Value → Outcome}
    (next_relocate : ∀ value, moved value = (next value).relocate relocation) :
    session.withValue (tree.relocate relocation) moved =
      (session.withValue tree next).relocate relocation := by
  rw [withValue, withValue, Tree.evaluate_relocate]
  cases tree.evaluate session.environment with
  | ok value => exact next_relocate value
  | error fault => rfl

theorem execute_relocate (session : Session) (statement : Tree) :
    session.execute (statement.relocate relocation) =
      (session.execute statement).relocate relocation := by
  rw [execute_eq, execute_eq, Tree.subject_relocate]
  exact withValue_relocate relocation session statement.subject
    (act_relocate relocation session statement)

/-- Moved statements run with the same effects, up to the same fault at the moved span. -/
theorem interpret_relocate (session : Session) (statements : List Tree) :
    session.interpret (statements.map (Tree.relocate relocation)) =
      (session.interpret statements).relocate relocation := by
  induction statements generalizing session with
  | nil => rfl
  | cons statement rest ih =>
    rw [List.map_cons, interpret_cons, interpret_cons, execute_relocate, Outcome.andThen_relocate]
    congr 1
    funext next
    exact ih next

end Session

end PrintLang
