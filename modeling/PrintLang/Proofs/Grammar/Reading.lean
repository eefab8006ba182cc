import PrintLang.Grammar.Reader
import PrintLang.Proofs.Grammar.Derivation

/-!
# Reading follows the grammar

The reader goes from place to place, one token at a time, and knows only what it needs for
the trees.  Here every place is given the derivation that stands behind it: a *fragment*, that
is, a statement taken apart as far as it has been read.

Soundness is an invariant of single steps: what has been read is complete statements and one
fragment.  Completeness goes along a derivation instead, from rule to rule, and shows where
its tokens lead.

## Main Definitions

* `Fragment` — a statement that is not complete, with its tokens and its place in the grammar
* `Reader.Knows` — the invariant of reading
* `Place.Leads` — the tokens that lead from a place to a place, and the statements on the way

## Main Statements

* `Reader.exists_knows_of_feed` — what stands behind the state of a reader
* `Statement.leads_program` — a reader takes the tokens of a program to their trees
* `ofTokens_iff_derivation` — the reader accepts the grammar and builds its trees
-/

namespace PrintLang

/-! ## Chains that wait for an item -/

namespace Chain

variable {rank : Grammar.Rank} {α : Type}

/-- The tokens of a chain and of the operator after it, if there is one. -/
def waitingTokensBy (item : α → List Token) (waiting : Option (Chain rank α × Sign rank)) :
    List Token :=
  match waiting with
  | none => []
  | some (chain, sign) => chain.tokensBy item ++ [sign.token]

/-- What the reader remembers of a chain and of the operator after it. -/
def waitingTreeBy (item : α → Tree) (waiting : Option (Chain rank α × Sign rank)) :
    Option (Tree × Operator) :=
  waiting.map fun (chain, sign) => (chain.treeBy item, sign.operator)

/-- The chain that an item completes. -/
def extend (waiting : Option (Chain rank α × Sign rank)) (next : α) : Chain rank α :=
  match waiting with
  | none => single next
  | some (chain, sign) => chain.push sign next

theorem tokensBy_extend (item : α → List Token) (waiting : Option (Chain rank α × Sign rank))
    (next : α) :
    (extend waiting next).tokensBy item = waitingTokensBy item waiting ++ item next := by
  cases waiting with
  | none => exact tokensBy_single item next
  | some pair => simp [extend, waitingTokensBy]

theorem treeBy_extend (item : α → Tree) (waiting : Option (Chain rank α × Sign rank))
    (next : α) :
    (extend waiting next).treeBy item = join (waitingTreeBy item waiting) (item next) := by
  cases waiting with
  | none => rfl
  | some pair => exact treeBy_push item pair.1 pair.2 next

end Chain

/-! ## Fragments -/

namespace Heading

/-- What the reader remembers of a heading. -/
def opening : Heading → Opening
  | declaration word name _ => .declaration word.span.start name.lexeme
  | assignment name _ => .assignment name.span.start name.lexeme
  | print word => .print word.span.start

end Heading

/-- The tree of a statement is made by the opening that the reader remembers. -/
theorem Statement.tree_eq_statement (statement : Statement) :
    statement.tree = statement.heading.opening.statement statement.value.tree
      statement.semicolon.span.stop := by
  simp only [tree]
  cases statement.heading <;> rfl

/-- A statement taken apart as far as it has been read. -/
inductive Fragment
  /-- Nothing has been read of it. -/
  | start
  /-- A name that an equals sign may follow. -/
  | afterName (name : Piece)
  /-- The word `var`. -/
  | afterVar (word : Piece)
  /-- The word `var` and a name. -/
  | afterVarName (word name : Piece)
  /-- A heading, terms and an operator after them, and factors and an operator after them. -/
  | beforeOperand (heading : Heading) (sum : Option (Expression × Sign .sum))
      (product : Option (Term × Sign .product))
  /-- A heading, terms and an operator after them, and a term that may go on. -/
  | afterOperand (heading : Heading) (sum : Option (Expression × Sign .sum)) (term : Term)

namespace Fragment

/-- The tokens of a fragment. -/
def tokens : Fragment → List Token
  | start => []
  | afterName name => [name.token .name]
  | afterVar word => [word.token .varWord]
  | afterVarName word name => [word.token .varWord, name.token .name]
  | beforeOperand heading sum product =>
    heading.tokens ++ Chain.waitingTokensBy Term.tokens sum ++
      Chain.waitingTokensBy (fun operand => [operand.token]) product
  | afterOperand heading sum term =>
    heading.tokens ++ Chain.waitingTokensBy Term.tokens sum ++ term.tokens

/-- The place to which a fragment leads. -/
def place : Fragment → Place
  | start => .start
  | afterName name => .afterName (name.token .name)
  | afterVar word => .afterVar word.span.start
  | afterVarName word name => .afterVarName word.span.start name.lexeme
  | beforeOperand heading sum product =>
    .operand heading.opening
      ⟨Chain.waitingTreeBy Term.tree sum, Chain.waitingTreeBy Operand.tree product⟩
  | afterOperand heading sum term =>
    .operator heading.opening (Chain.waitingTreeBy Term.tree sum) term.tree

/-! ## Every step has a derivation -/

/-- What one more token makes of a fragment: a longer one, or a complete statement. -/
def GoesOn (fragment : Fragment) (token : Token) (next : Place) (completed : Option Tree) :
    Prop :=
  (∃ longer : Fragment, next = longer.place ∧ completed = none ∧
    longer.tokens = fragment.tokens ++ [token]) ∨
  (∃ statement : Statement, next = .start ∧ completed = some statement.tree ∧
    statement.tokens = fragment.tokens ++ [token])

/-- A token that the reader takes for an operand is one. -/
theorem exists_operand_of_leaf? {token : Token} {leaf : Tree}
    (same : Place.leaf? token = .ok (some leaf)) :
    ∃ operand : Operand, operand.token = token ∧ operand.tree = leaf := by
  obtain ⟨kind, lexeme, span⟩ := token
  cases kind with
  | number =>
    cases denotes : Number.ofNumeral? lexeme with
    | none => simp [Place.leaf?, denotes] at same
    | some value =>
      simp only [Place.leaf?, denotes, Except.ok.injEq, Option.some.injEq] at same
      exact ⟨.number ⟨⟨lexeme, span⟩, value, denotes⟩, rfl, same⟩
  | text =>
    cases same
    exact ⟨.text ⟨lexeme, span⟩, rfl, rfl⟩
  | name =>
    cases same
    exact ⟨.name ⟨lexeme, span⟩, rfl, rfl⟩
  | _ => cases same

/-- An operand goes on with the factors that wait for it. -/
theorem goesOn_operand (heading : Heading) (sum : Option (Expression × Sign .sum))
    (product : Option (Term × Sign .product)) (operand : Operand) :
    (beforeOperand heading sum product).GoesOn operand.token
      (.afterOperand heading.opening
        ⟨Chain.waitingTreeBy Term.tree sum, Chain.waitingTreeBy Operand.tree product⟩
        operand.tree) none := by
  refine Or.inl ⟨.afterOperand heading sum (Chain.extend product operand), ?_, rfl, ?_⟩
  · rw [place, Term.tree, Chain.treeBy_extend]
    rfl
  · rw [tokens, tokens, Term.tokens, Chain.tokensBy_extend]
    simp only [List.append_assoc]

/-- An operator of a product waits with the term before it. -/
theorem goesOn_product (heading : Heading) (sum : Option (Expression × Sign .sum))
    (term : Term) (sign : Sign .product) :
    (afterOperand heading sum term).GoesOn sign.token
      (.operand heading.opening
        ⟨Chain.waitingTreeBy Term.tree sum, some (term.tree, sign.operator)⟩) none := by
  refine Or.inl ⟨.beforeOperand heading sum (some (term, sign)), rfl, rfl, ?_⟩
  exact (List.append_assoc _ _ _).symm

/-- An operator of a sum completes the term before it, and waits with all terms. -/
theorem goesOn_sum (heading : Heading) (sum : Option (Expression × Sign .sum))
    (term : Term) (sign : Sign .sum) :
    (afterOperand heading sum term).GoesOn sign.token
      (.operand heading.opening
        ⟨some (join (Chain.waitingTreeBy Term.tree sum) term.tree, sign.operator), none⟩)
      none := by
  refine Or.inl ⟨.beforeOperand heading (some (Chain.extend sum term, sign)) none, ?_, rfl, ?_⟩
  · rw [place, ← Chain.treeBy_extend]
    rfl
  · rw [tokens, tokens, Chain.waitingTokensBy, Chain.waitingTokensBy, Chain.tokensBy_extend]
    simp only [List.append_assoc, List.append_nil]

/-- A semicolon completes the statement. -/
theorem goesOn_semicolon (heading : Heading) (sum : Option (Expression × Sign .sum))
    (term : Term) (semicolon : Piece) :
    (afterOperand heading sum term).GoesOn (semicolon.token .semicolon) .start
      (some (heading.opening.statement (join (Chain.waitingTreeBy Term.tree sum) term.tree)
        semicolon.span.stop)) := by
  refine Or.inr ⟨⟨heading, Chain.extend sum term, semicolon⟩, rfl, ?_, ?_⟩
  · rw [Statement.tree_eq_statement, Expression.tree, Chain.treeBy_extend]
  · rw [Statement.tokens, Expression.tokens, Chain.tokensBy_extend, tokens]
    simp only [List.append_assoc]

/-- A token that the reader lets stand after a fragment goes on with it.  There is one case
for every arrow of the grammar. -/
theorem goesOn_of_step {fragment : Fragment} {token : Token} {next : Place}
    {completed : Option Tree} (step : fragment.place.step token = .ok (next, completed)) :
    fragment.GoesOn token next completed := by
  obtain ⟨kind, lexeme, span⟩ := token
  cases fragment with
  | start =>
    cases kind with
    | varWord =>
      cases step
      exact Or.inl ⟨.afterVar ⟨lexeme, span⟩, rfl, rfl, rfl⟩
    | printWord =>
      cases step
      exact Or.inl ⟨.beforeOperand (.print ⟨lexeme, span⟩) none none, rfl, rfl, rfl⟩
    | name =>
      cases step
      exact Or.inl ⟨.afterName ⟨lexeme, span⟩, rfl, rfl, rfl⟩
    | _ => cases step
  | afterName name =>
    cases kind with
    | equals =>
      cases step
      exact Or.inl ⟨.beforeOperand (.assignment name ⟨lexeme, span⟩) none none, rfl, rfl, rfl⟩
    | _ => cases step
  | afterVar word =>
    cases kind with
    | name =>
      cases step
      exact Or.inl ⟨.afterVarName word ⟨lexeme, span⟩, rfl, rfl, rfl⟩
    | _ => cases step
  | afterVarName word name =>
    cases kind with
    | equals =>
      cases step
      exact Or.inl
        ⟨.beforeOperand (.declaration word name ⟨lexeme, span⟩) none none, rfl, rfl, rfl⟩
    | _ => cases step
  | beforeOperand heading sum product =>
    cases same : Place.leaf? ⟨kind, lexeme, span⟩ with
    | error fault => simp [place, Place.step, same] at step
    | ok leaf? =>
      cases leaf? with
      | none => simp [place, Place.step, same] at step
      | some leaf =>
        obtain ⟨operand, token_eq, rfl⟩ := exists_operand_of_leaf? same
        simp only [place, Place.step, same, Except.ok.injEq, Prod.mk.injEq] at step
        obtain ⟨rfl, rfl⟩ := step
        rw [← token_eq]
        exact goesOn_operand heading sum product operand
  | afterOperand heading sum term =>
    cases kind with
    | star =>
      cases step
      exact goesOn_product heading sum term ⟨.multiply, rfl, ⟨lexeme, span⟩⟩
    | slash =>
      cases step
      exact goesOn_product heading sum term ⟨.divide, rfl, ⟨lexeme, span⟩⟩
    | plus =>
      cases step
      exact goesOn_sum heading sum term ⟨.add, rfl, ⟨lexeme, span⟩⟩
    | minus =>
      cases step
      exact goesOn_sum heading sum term ⟨.subtract, rfl, ⟨lexeme, span⟩⟩
    | semicolon =>
      cases step
      exact goesOn_semicolon heading sum term ⟨lexeme, span⟩
    | _ => cases step

end Fragment

/-- What stands behind the state of a reader: complete statements and a fragment.
This is the invariant of reading. -/
structure Reader.Knows (reader : Reader) (tokens : List Token) (statements : List Statement)
    (fragment : Fragment) : Prop where
  place_eq : reader.place = fragment.place
  statements_eq : reader.statements.toList = statements.map Statement.tree
  tokens_eq : tokens = statements.flatMap Statement.tokens ++ fragment.tokens

namespace Reader

/-- At the start of a statement there is no fragment. -/
theorem Knows.tokens_eq_of_start {reader : Reader} {tokens : List Token}
    {statements : List Statement} {fragment : Fragment}
    (knows : reader.Knows tokens statements fragment) (atStart : reader.place = .start) :
    tokens = statements.flatMap Statement.tokens := by
  obtain rfl : fragment = .start := by
    cases fragment with
    | start => rfl
    | _ => cases atStart.symm.trans knows.place_eq
  rw [knows.tokens_eq, Fragment.tokens, List.append_nil]

/-- One step keeps the invariant. -/
theorem Knows.step {reader next : Reader} {tokens : List Token} {statements : List Statement}
    {fragment : Fragment} (knows : reader.Knows tokens statements fragment) {token : Token}
    (step : reader.step token = .ok next) :
    ∃ statements fragment, next.Knows (tokens ++ [token]) statements fragment := by
  rw [Reader.step, knows.place_eq] at step
  -- The token makes the fragment longer, or it is the semicolon of the statement.
  split at step
  · next place stepped =>
    cases step
    rcases Fragment.goesOn_of_step stepped with
      ⟨longer, place_eq, -, longer_eq⟩ | ⟨statement, -, completed_eq, -⟩
    · refine ⟨statements, longer, place_eq, knows.statements_eq, ?_⟩
      rw [knows.tokens_eq, longer_eq, List.append_assoc]
    · cases completed_eq
  · next place statement stepped =>
    cases step
    rcases Fragment.goesOn_of_step stepped with
      ⟨longer, -, completed_eq, -⟩ | ⟨complete, place_eq, completed_eq, complete_eq⟩
    · cases completed_eq
    · cases completed_eq
      refine ⟨statements ++ [complete], .start, place_eq, ?_, ?_⟩
      · rw [Array.toList_push, knows.statements_eq, List.map_append, List.map_singleton]
      · rw [knows.tokens_eq, List.append_assoc, ← complete_eq, List.flatMap_append,
          List.flatMap_singleton, Fragment.tokens, List.append_nil]
  · cases step

/-- Whatever has been read without a fault is complete statements and a fragment. -/
theorem exists_knows_of_feed {tokens : List Token} {reader : Reader}
    (fed : initial.feed tokens = .ok reader) :
    ∃ statements fragment, reader.Knows tokens statements fragment := by
  induction tokens using List.reverseRecOn generalizing reader with
  | nil =>
    cases fed
    exact ⟨[], .start, rfl, rfl, rfl⟩
  | append_singleton tokens token ih =>
    rw [feed_append] at fed
    split at fed
    · next before fedBefore =>
      obtain ⟨statements, fragment, knows⟩ := ih fedBefore
      simp only [feed] at fed
      split at fed
      · next after stepped =>
        cases fed
        exact knows.step stepped
      · cases fed
    · cases fed

end Reader

/-! ## Every derivation is read -/

/-- From one place, some tokens lead to another place, completing some statements. -/
def Place.Leads (place : Place) (tokens : List Token) (next : Place) (completed : List Tree) :
    Prop :=
  ∀ statements stop, ∃ stop', (Reader.mk place statements stop).feed tokens =
    .ok ⟨next, statements ++ completed.toArray, stop'⟩

namespace Place.Leads

variable {place next last : Place} {first second : List Token} {completed more : List Tree}

/-- No token leads nowhere. -/
theorem refl (place : Place) : place.Leads [] place [] :=
  fun statements stop => ⟨stop, by simp [Reader.feed]⟩

theorem trans (leads : place.Leads first next completed) (goesOn : next.Leads second last more) :
    place.Leads (first ++ second) last (completed ++ more) := by
  intro statements stop
  obtain ⟨middle, fed⟩ := leads statements stop
  obtain ⟨stop', fedOn⟩ := goesOn (statements ++ completed.toArray) middle
  refine ⟨stop', ?_⟩
  rw [Reader.feed_append, fed]
  simpa using fedOn

/-- A single step that completes nothing. -/
theorem of_step {token : Token} (step : place.step token = .ok (next, none)) :
    place.Leads [token] next [] := by
  intro statements stop
  exact ⟨token.span.stop, by simp [Reader.feed, Reader.step, step]⟩

/-- A single step that completes a statement. -/
theorem of_step_some {token : Token} {statement : Tree}
    (step : place.step token = .ok (next, some statement)) :
    place.Leads [token] next [statement] := by
  intro statements stop
  exact ⟨token.span.stop, by simp [Reader.feed, Reader.step, step]⟩

end Place.Leads

open Place (Leads)

/-- An operand is read as its leaf. -/
theorem Operand.leads (operand : Operand) (opening : Opening) (waiting : Waiting) :
    Leads (.operand opening waiting) [operand.token]
      (.afterOperand opening waiting operand.tree) [] := by
  have leaf : Place.leaf? operand.token = .ok (some operand.tree) := by
    cases operand with
    | number numeral => simp [token, tree, Piece.token, Place.leaf?, numeral.denotes]
    | text piece => rfl
    | name piece => rfl
  exact .of_step (by simp [Place.step, leaf])

/-- An operator of a product is read after a factor. -/
theorem Sign.leads_product (sign : Sign .product) (opening : Opening)
    (sum : Option (Tree × Operator)) (term : Tree) :
    Leads (.operator opening sum term) [sign.token]
      (.operand opening ⟨sum, some (term, sign.operator)⟩) [] := by
  obtain ⟨operator, rank_eq, piece⟩ := sign
  cases operator with
  | multiply => exact .of_step rfl
  | divide => exact .of_step rfl
  | add => cases rank_eq
  | subtract => cases rank_eq

/-- An operator of a sum is read after a term. -/
theorem Sign.leads_sum (sign : Sign .sum) (opening : Opening)
    (sum : Option (Tree × Operator)) (term : Tree) :
    Leads (.operator opening sum term) [sign.token]
      (.operand opening ⟨some (join sum term, sign.operator), none⟩) [] := by
  obtain ⟨operator, rank_eq, piece⟩ := sign
  cases operator with
  | add => exact .of_step rfl
  | subtract => exact .of_step rfl
  | multiply => cases rank_eq
  | divide => cases rank_eq

/-- A term is read as its tree, whatever sum waits for it. -/
theorem Term.leads (term : Term) (opening : Opening) (sum : Option (Tree × Operator)) :
    Leads (.operand opening ⟨sum, none⟩) term.tokens (.operator opening sum term.tree) [] := by
  induction term using Chain.pushInduction with
  | single first =>
    rw [tokens, tree, Chain.tokensBy_single, Chain.treeBy_single]
    exact first.leads opening ⟨sum, none⟩
  | push term sign next ih =>
    rw [tokens, tree, Chain.tokensBy_push, Chain.treeBy_push]
    exact ih.trans ((sign.leads_product opening sum _).trans (next.leads opening _))

/-- An expression is read as its tree: the last term stands apart, since it may go on, and
the terms before it wait. -/
theorem Expression.leads (expression : Expression) (opening : Opening) :
    ∃ sum term, join sum term = expression.tree ∧
      Leads (.expression opening) expression.tokens (.operator opening sum term) [] := by
  induction expression using Chain.pushInduction with
  | single first =>
    refine ⟨none, first.tree, rfl, ?_⟩
    rw [tokens, Chain.tokensBy_single]
    exact first.leads opening none
  | push expression sign next ih =>
    obtain ⟨sum, term, join_eq, leads⟩ := ih
    -- The operator closes the last term, and all terms before it wait as one tree.
    refine ⟨some (Expression.tree expression, sign.operator), next.tree, ?_, ?_⟩
    · exact (Chain.treeBy_push Term.tree expression sign next).symm
    · rw [tokens, Chain.tokensBy_push, ← join_eq]
      exact leads.trans ((sign.leads_sum opening sum term).trans (next.leads opening _))

theorem Heading.leads (heading : Heading) :
    Leads .start heading.tokens (.expression heading.opening) [] := by
  cases heading with
  | declaration word name equals =>
    have words : Leads .start ([word.token .varWord] ++ [name.token .name])
        (.afterVarName word.span.start name.lexeme) [] :=
      (Leads.of_step rfl).trans (.of_step rfl)
    exact words.trans (.of_step rfl)
  | assignment name equals =>
    have first : Leads .start [name.token .name] (.afterName (name.token .name)) [] :=
      .of_step rfl
    exact first.trans (.of_step rfl)
  | print word => exact .of_step rfl

/-- A statement is read as its tree. -/
theorem Statement.leads (statement : Statement) :
    Leads .start statement.tokens .start [statement.tree] := by
  obtain ⟨sum, term, join_eq, leads⟩ := statement.value.leads statement.heading.opening
  rw [tokens, tree_eq_statement, ← join_eq]
  exact (statement.heading.leads.trans leads).trans (.of_step_some rfl)

/-- The statements of a program are read one after the other. -/
theorem Statement.leads_program (statements : List Statement) :
    Leads .start (statements.flatMap Statement.tokens) .start
      (statements.map Statement.tree) := by
  induction statements with
  | nil => exact .refl .start
  | cons statement statements ih => exact statement.leads.trans ih

/-! ## The reader and the grammar -/

/-- A derivation of the tokens before the first end of input fixes what the reader makes of
the whole list. -/
theorem Tree.ofTokens_of_derivation {tokens : List Token} {program : List Statement}
    (same : program.flatMap Statement.tokens = Token.beforeEnd tokens) :
    Tree.ofTokens tokens = .ok (program.map Statement.tree) := by
  obtain ⟨stop, fed⟩ := Statement.leads_program program #[] 0
  rw [Tree.ofTokens, ← same, Reader.initial, fed]
  simp [Reader.finish]

/-- Whatever the reader accepts has a derivation. -/
theorem Tree.exists_derivation_of_ofTokens {tokens : List Token} {statements : List Tree}
    (accepted : Tree.ofTokens tokens = .ok statements) :
    ∃ program : List Statement, program.flatMap Statement.tokens = Token.beforeEnd tokens ∧
      program.map Statement.tree = statements := by
  rw [Tree.ofTokens] at accepted
  split at accepted
  · next reader fed =>
    obtain ⟨program, fragment, knows⟩ := Reader.exists_knows_of_feed fed
    rw [Reader.finish] at accepted
    split at accepted
    · next place_eq =>
      cases accepted
      exact ⟨program, (knows.tokens_eq_of_start place_eq).symm, knows.statements_eq.symm⟩
    · cases accepted
  · cases accepted

/-- **The reader accepts exactly the grammar, and builds the tree that the grammar prescribes.**

A list of tokens is accepted if the kinds before its first end of input are a word of the
grammar and the numbers there denote doubles.  Its statements are then the trees of its
derivations, in order; in them, operators of one rank are folded from the left, a leaf has
the span of its token, an operation reaches over its operands, and a statement over all of its
tokens. -/
theorem ofTokens_iff_derivation (tokens : List Token) :
    ((∃ statements, Tree.ofTokens tokens = .ok statements) ↔
      (Token.beforeEnd tokens).map Token.kind ∈ Grammar.program ∧
        Token.NumeralsDenote (Token.beforeEnd tokens)) ∧
    (∀ statements, Tree.ofTokens tokens = .ok statements ↔
      ∃ program : List Statement, program.flatMap Statement.tokens = Token.beforeEnd tokens ∧
        program.map Statement.tree = statements) ∧
    ∀ statement : Statement,
      statement.tree.span = Token.reach statement.tokens ∧
      statement.value.tree.inOrder.map some = statement.value.tokens.map Token.mark? ∧
      statement.value.tree.span = Token.reach statement.value.tokens ∧
      statement.value.tree.OperationsReach := by
  have derivation (statements : List Tree) : Tree.ofTokens tokens = .ok statements ↔
      ∃ program : List Statement, program.flatMap Statement.tokens = Token.beforeEnd tokens ∧
        program.map Statement.tree = statements := by
    constructor
    · exact Tree.exists_derivation_of_ofTokens
    · rintro ⟨program, same, rfl⟩
      exact Tree.ofTokens_of_derivation same
  refine ⟨?_, derivation, fun statement => ?_⟩
  · rw [← derives_program (Token.beforeEnd tokens)]
    constructor
    · rintro ⟨statements, accepted⟩
      obtain ⟨program, same, -⟩ := (derivation statements).mp accepted
      exact ⟨program, same⟩
    · rintro ⟨program, same⟩
      exact ⟨_, (derivation _).mpr ⟨program, same, rfl⟩⟩
  · have value := statement.value.over_tokens
    exact ⟨statement.over_tokens.span_eq, statement.value.inOrder_tree, value.span_eq,
      value.operations⟩

end PrintLang
