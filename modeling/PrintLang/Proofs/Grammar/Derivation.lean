import Mathlib.Computability.Language
import PrintLang.Grammar.Place

/-!
# Derivations

The grammar of programs, twice.  `Grammar.program` is the set of its words, that is, of the
sequences of token kinds that make a program; it is a regular expression, since no rule
nests.  A *derivation* is a program taken apart by the rules, down to its tokens.  It knows
the tokens it was taken from, and the syntax trees that the rules prescribe for it.

The reader of tokens is not mentioned here: what a program is, and which trees it has, is
fixed before anything is said about how it is read.

## Main Definitions

* `Grammar.operand`, `Grammar.term`, `Grammar.expression`, `Grammar.statement`,
  `Grammar.program` — the words of each rule
* `Operand`, `Sign`, `Chain`, `Statement` — derivations
* `Statement.tokens`, `Statement.tree` — the tokens of a derivation and its tree
* `Tree.inOrder`, `Token.mark?` — operands and operators as they stand in the text

## Main Statements

* `derives_program` — the tokens of derivations are the words whose numbers denote doubles
* `Expression.inOrder_tree` — the operands and operators of a tree are its tokens
* `Statement.over_tokens` — the tree of a statement reaches over its tokens
-/

namespace PrintLang

namespace Grammar

open Computability

/-! ## The words of the grammar -/

/-- The word of a single token. -/
def one (kind : TokenKind) : Language TokenKind :=
  {[kind]}

theorem mem_one (kind : TokenKind) : [kind] ∈ one kind := rfl

/-- The words of an operand. -/
def operand : Language TokenKind :=
  one .number + one .text + one .name

/-- The two ranks of operators.  Those of a product bind more tightly than those of a sum. -/
inductive Rank
  /-- The operators `*` and `/`. -/
  | product
  /-- The operators `+` and `-`. -/
  | sum
deriving DecidableEq

/-- The words of an operator of a rank. -/
def sign : Rank → Language TokenKind
  | .product => one .star + one .slash
  | .sum => one .plus + one .minus

/-- Items with operators of one rank between them. -/
def chain (rank : Rank) (item : Language TokenKind) : Language TokenKind :=
  item * (sign rank * item)∗

/-- The words of a term: operands with `*` and `/` between them. -/
def term : Language TokenKind :=
  chain .product operand

/-- The words of an expression: terms with `+` and `-` between them. -/
def expression : Language TokenKind :=
  chain .sum term

/-- The words that stand before the expression of a statement. -/
def heading : Language TokenKind :=
  one .varWord * one .name * one .equals + one .name * one .equals + one .printWord

/-- The words of a statement. -/
def statement : Language TokenKind :=
  heading * expression * one .semicolon

/-- The words of a program. -/
def program : Language TokenKind :=
  statement∗

end Grammar

/-! ## Derivations and their tokens -/

/-- The lexeme and the span of a token whose kind is known from where it stands. -/
structure Piece where
  /-- The characters of the token. -/
  lexeme : String
  /-- Where the token stands in the source. -/
  span : Span
deriving DecidableEq

/-- The token of a kind with this lexeme and span. -/
def Piece.token (piece : Piece) (kind : TokenKind) : Token :=
  ⟨kind, piece.lexeme, piece.span⟩

/-- A number token together with the double that its lexeme denotes. -/
structure Numeral extends Piece where
  /-- The double. -/
  value : Float
  /-- The lexeme denotes it. -/
  denotes : Number.ofNumeral? lexeme = some value

/-- An operand. -/
inductive Operand
  | number (numeral : Numeral)
  | text (piece : Piece)
  | name (piece : Piece)

namespace Operand

/-- The token of an operand. -/
def token : Operand → Token
  | number numeral => numeral.token .number
  | text piece => piece.token .text
  | name piece => piece.token .name

/-- The leaf of an operand, at the span of its token. -/
def tree : Operand → Tree
  | number numeral => .number numeral.value numeral.span
  | text piece => .text piece.lexeme piece.span
  | name piece => .reference piece.lexeme piece.span

end Operand

/-- The rank of an operator. -/
def Operator.rank : Operator → Grammar.Rank
  | add | subtract => .sum
  | multiply | divide => .product

/-- The kind of the token of an operator. -/
def Operator.kind : Operator → TokenKind
  | add => .plus
  | subtract => .minus
  | multiply => .star
  | divide => .slash

/-- The token of an operator of a rank. -/
structure Sign (rank : Grammar.Rank) where
  /-- The operator. -/
  operator : Operator
  /-- It has the given rank. -/
  rank_eq : operator.rank = rank
  /-- The lexeme and the span of the token. -/
  piece : Piece

/-- The token of a sign. -/
def Sign.token {rank : Grammar.Rank} (sign : Sign rank) : Token :=
  sign.piece.token sign.operator.kind

/-- Items joined by operators of one rank: a first item, then operators with the items after
them. -/
structure Chain (rank : Grammar.Rank) (α : Type) where
  /-- The first item. -/
  first : α
  /-- The operators, each with the item on its right. -/
  rest : List (Sign rank × α)

namespace Chain

variable {rank : Grammar.Rank} {α : Type}

/-- The tokens of a chain, given those of an item. -/
def tokensBy (item : α → List Token) (chain : Chain rank α) : List Token :=
  item chain.first ++ chain.rest.flatMap fun (sign, next) => sign.token :: item next

/-- The tree of a chain, given that of an item: the items are folded from the left.  Every
operation reaches from the start of its left operand to the end of its right one. -/
def treeBy (item : α → Tree) (chain : Chain rank α) : Tree :=
  chain.rest.foldl
    (fun left (sign, next) =>
      .operation left sign.operator (item next) ⟨left.span.start, (item next).span.stop⟩)
    (item chain.first)

/-- The chain of a single item. -/
def single (first : α) : Chain rank α :=
  ⟨first, []⟩

/-- The chain with one more operator and item. -/
def push (chain : Chain rank α) (sign : Sign rank) (next : α) : Chain rank α :=
  ⟨chain.first, chain.rest ++ [(sign, next)]⟩

@[simp] theorem tokensBy_single (item : α → List Token) (first : α) :
    (single first : Chain rank α).tokensBy item = item first := by
  simp [single, tokensBy]

@[simp] theorem tokensBy_push (item : α → List Token) (chain : Chain rank α)
    (sign : Sign rank) (next : α) :
    (chain.push sign next).tokensBy item =
      chain.tokensBy item ++ sign.token :: item next := by
  simp [push, tokensBy]

@[simp] theorem treeBy_single (item : α → Tree) (first : α) :
    (single first : Chain rank α).treeBy item = item first := rfl

@[simp] theorem treeBy_push (item : α → Tree) (chain : Chain rank α) (sign : Sign rank)
    (next : α) :
    (chain.push sign next).treeBy item =
      (chain.treeBy item).joined sign.operator (item next) := by
  simp [push, treeBy, Tree.joined]

/-- Every chain is a single item, extended by operators and items on the right. -/
theorem pushInduction {motive : Chain rank α → Prop} (chain : Chain rank α)
    (single : ∀ first, motive (single first))
    (push : ∀ chain sign next, motive chain → motive (Chain.push chain sign next)) :
    motive chain := by
  obtain ⟨first, rest⟩ := chain
  induction rest using List.reverseRecOn with
  | nil => exact single first
  | append_singleton rest last ih => exact push ⟨first, rest⟩ last.1 last.2 ih

end Chain

/-- Operands joined by `*` and `/`. -/
abbrev Term := Chain .product Operand

/-- Terms joined by `+` and `-`. -/
abbrev Expression := Chain .sum Term

/-- The tokens of a term. -/
def Term.tokens (term : Term) : List Token :=
  Chain.tokensBy (fun operand => [operand.token]) term

/-- The tree of a term. -/
def Term.tree (term : Term) : Tree :=
  Chain.treeBy Operand.tree term

/-- The tokens of an expression. -/
def Expression.tokens (expression : Expression) : List Token :=
  Chain.tokensBy Term.tokens expression

/-- The tree of an expression. -/
def Expression.tree (expression : Expression) : Tree :=
  Chain.treeBy Term.tree expression

/-- What stands before the expression of a statement. -/
inductive Heading
  /-- The words `var name =`. -/
  | declaration (word name equals : Piece)
  /-- The words `name =`. -/
  | assignment (name equals : Piece)
  /-- The word `print`. -/
  | print (word : Piece)

namespace Heading

/-- The tokens of a heading. -/
def tokens : Heading → List Token
  | declaration word name equals =>
    [word.token .varWord, name.token .name, equals.token .equals]
  | assignment name equals => [name.token .name, equals.token .equals]
  | print word => [word.token .printWord]

/-- The position of the first token. -/
def start : Heading → Nat
  | declaration word _ _ => word.span.start
  | assignment name _ => name.span.start
  | print word => word.span.start

end Heading

/-- A statement taken apart. -/
structure Statement where
  /-- What stands before the expression. -/
  heading : Heading
  /-- The expression. -/
  value : Expression
  /-- The semicolon at the end. -/
  semicolon : Piece

namespace Statement

/-- The tokens of a statement. -/
def tokens (statement : Statement) : List Token :=
  statement.heading.tokens ++ statement.value.tokens ++ [statement.semicolon.token .semicolon]

/-- The tree of a statement.  It reaches from the first token to the end of the semicolon. -/
def tree (statement : Statement) : Tree :=
  let span : Span := ⟨statement.heading.start, statement.semicolon.span.stop⟩
  match statement.heading with
  | .declaration _ name _ => .assign name.lexeme statement.value.tree span
  | .assignment name _ => .assign name.lexeme statement.value.tree span
  | .print _ => .print statement.value.tree span

end Statement

/-! ## Words and derivations

The rules of the grammar are built from single tokens by choice, sequence and repetition.  For
each of these it is shown once that the lists of tokens with a word of the rule are those with
a derivation; the rules themselves then follow one after the other. -/

/-- Every number among the tokens denotes a double. -/
def Token.NumeralsDenote (tokens : List Token) : Prop :=
  ∀ token ∈ tokens, token.kind = .number → (Number.ofNumeral? token.lexeme).isSome

theorem Token.numeralsDenote_append {first second : List Token} :
    Token.NumeralsDenote (first ++ second) ↔
      Token.NumeralsDenote first ∧ Token.NumeralsDenote second :=
  List.forall_mem_append

/-- The lists of tokens that have a word of a language, and whose numbers denote doubles, are
exactly the tokens of derivations. -/
def Derives {α : Type} (words : Language TokenKind) (tokens : α → List Token) : Prop :=
  ∀ list : List Token, (∃ a, tokens a = list) ↔
    list.map Token.kind ∈ words ∧ Token.NumeralsDenote list

namespace Derives

open Computability

variable {α β : Type} {words first second : Language TokenKind} {tokens : α → List Token}
variable {left : α → List Token} {right : β → List Token}

/-- A single token that is no number. -/
theorem one (kind : TokenKind) (notNumber : kind ≠ .number) :
    Derives (Grammar.one kind) fun piece : Piece => [piece.token kind] := by
  intro list
  constructor
  · rintro ⟨piece, rfl⟩
    refine ⟨Grammar.mem_one kind, fun token member isNumber => ?_⟩
    obtain rfl := List.mem_singleton.mp member
    exact absurd isNumber notNumber
  · rintro ⟨mem, -⟩
    obtain ⟨token, rfl, rfl⟩ := List.map_eq_singleton_iff.mp mem
    exact ⟨⟨token.lexeme, token.span⟩, rfl⟩

/-- Derivations of another shape with the same tokens. -/
theorem reshape {other : β → List Token} (derives : Derives words tokens)
    (forth : ∀ b, ∃ a, tokens a = other b) (back : ∀ a, ∃ b, other b = tokens a) :
    Derives words other := by
  intro list
  rw [← derives list]
  constructor
  · rintro ⟨b, rfl⟩
    exact forth b
  · rintro ⟨a, rfl⟩
    exact back a

/-- A choice between two rules. -/
theorem add (derivesLeft : Derives first left) (derivesRight : Derives second right) :
    Derives (first + second) (Sum.elim left right) := by
  intro list
  rw [Sum.exists, Language.mem_add, or_and_right, ← derivesLeft list, ← derivesRight list]
  rfl

/-- Two rules in a row. -/
theorem mul (derivesLeft : Derives first left) (derivesRight : Derives second right) :
    Derives (first * second) fun pair : α × β => left pair.1 ++ right pair.2 := by
  intro list
  constructor
  · rintro ⟨⟨a, b⟩, rfl⟩
    obtain ⟨leftMem, leftDenote⟩ := (derivesLeft _).mp ⟨a, rfl⟩
    obtain ⟨rightMem, rightDenote⟩ := (derivesRight _).mp ⟨b, rfl⟩
    rw [List.map_append]
    exact ⟨Language.append_mem_mul leftMem rightMem,
      Token.numeralsDenote_append.mpr ⟨leftDenote, rightDenote⟩⟩
  · rintro ⟨mem, denote⟩
    obtain ⟨leftKinds, leftMem, rightKinds, rightMem, same⟩ := Language.mem_mul.mp mem
    -- The list of tokens is cut where the list of their kinds is.
    obtain ⟨leftList, rightList, rfl, rfl, rfl⟩ := List.map_eq_append_iff.mp same.symm
    obtain ⟨leftDenote, rightDenote⟩ := Token.numeralsDenote_append.mp denote
    obtain ⟨a, rfl⟩ := (derivesLeft leftList).mpr ⟨leftMem, leftDenote⟩
    obtain ⟨b, rfl⟩ := (derivesRight rightList).mpr ⟨rightMem, rightDenote⟩
    exact ⟨(a, b), rfl⟩

/-- A rule any number of times. -/
theorem kstar (derives : Derives words tokens) :
    Derives words∗ fun items : List α => items.flatMap tokens := by
  intro list
  constructor
  · rintro ⟨items, rfl⟩
    induction items with
    | nil => exact ⟨Language.nil_mem_kstar words, fun _ member => absurd member List.not_mem_nil⟩
    | cons a items ih =>
      obtain ⟨mem, denote⟩ := (derives _).mp ⟨a, rfl⟩
      obtain ⟨restMem, restDenote⟩ := ih
      simp only [List.flatMap_cons, List.map_append]
      refine ⟨?_, Token.numeralsDenote_append.mpr ⟨denote, restDenote⟩⟩
      rw [← Language.one_add_self_mul_kstar_eq_kstar]
      exact Or.inr (Language.append_mem_mul mem restMem)
  · rintro ⟨mem, denote⟩
    obtain ⟨parts, same, partsMem⟩ := Language.mem_kstar.mp mem
    clear mem
    -- One part after the other is cut off.
    induction parts generalizing list with
    | nil =>
      obtain rfl := List.map_eq_nil_iff.mp same
      exact ⟨[], rfl⟩
    | cons part parts ih =>
      obtain ⟨head, rest, rfl, rfl, restKinds⟩ := List.map_eq_append_iff.mp same
      obtain ⟨headDenote, restDenote⟩ := Token.numeralsDenote_append.mp denote
      obtain ⟨a, rfl⟩ := (derives head).mpr ⟨partsMem _ List.mem_cons_self, headDenote⟩
      obtain ⟨items, rfl⟩ := ih rest restDenote restKinds
        fun part member => partsMem part (List.mem_cons_of_mem _ member)
      exact ⟨a :: items, rfl⟩

end Derives

theorem derives_sign (rank : Grammar.Rank) :
    Derives (Grammar.sign rank) fun sign : Sign rank => [sign.token] := by
  cases rank with
  | product =>
    refine ((Derives.one .star (by decide)).add (Derives.one .slash (by decide))).reshape ?_ ?_
    · rintro ⟨operator, rank_eq, piece⟩
      cases operator with
      | multiply => exact ⟨.inl piece, rfl⟩
      | divide => exact ⟨.inr piece, rfl⟩
      | add => cases rank_eq
      | subtract => cases rank_eq
    · rintro (piece | piece)
      · exact ⟨⟨.multiply, rfl, piece⟩, rfl⟩
      · exact ⟨⟨.divide, rfl, piece⟩, rfl⟩
  | sum =>
    refine ((Derives.one .plus (by decide)).add (Derives.one .minus (by decide))).reshape ?_ ?_
    · rintro ⟨operator, rank_eq, piece⟩
      cases operator with
      | add => exact ⟨.inl piece, rfl⟩
      | subtract => exact ⟨.inr piece, rfl⟩
      | multiply => cases rank_eq
      | divide => cases rank_eq
    · rintro (piece | piece)
      · exact ⟨⟨.add, rfl, piece⟩, rfl⟩
      · exact ⟨⟨.subtract, rfl, piece⟩, rfl⟩

/-- Items with operators of one rank between them. -/
theorem Derives.chain {α : Type} {words : Language TokenKind} {tokens : α → List Token}
    {rank : Grammar.Rank} (derives : Derives words tokens) :
    Derives (Grammar.chain rank words) fun chain : Chain rank α => chain.tokensBy tokens :=
  (derives.mul ((derives_sign rank).mul derives).kstar).reshape
    (fun ⟨first, rest⟩ => ⟨(first, rest), rfl⟩) (fun ⟨first, rest⟩ => ⟨⟨first, rest⟩, rfl⟩)

theorem derives_numeral :
    Derives (Grammar.one .number) fun numeral : Numeral => [numeral.token .number] := by
  intro list
  constructor
  · rintro ⟨numeral, rfl⟩
    refine ⟨Grammar.mem_one .number, fun token member _ => ?_⟩
    obtain rfl := List.mem_singleton.mp member
    exact Option.isSome_of_eq_some numeral.denotes
  · rintro ⟨mem, denote⟩
    obtain ⟨token, rfl, isNumber⟩ := List.map_eq_singleton_iff.mp mem
    obtain ⟨value, denotes⟩ :=
      Option.isSome_iff_exists.mp (denote token List.mem_cons_self isNumber)
    obtain ⟨kind, lexeme, span⟩ := token
    obtain rfl : kind = .number := isNumber
    exact ⟨⟨⟨lexeme, span⟩, value, denotes⟩, rfl⟩

theorem derives_operand : Derives Grammar.operand fun operand : Operand => [operand.token] := by
  refine ((derives_numeral.add (Derives.one .text (by decide))).add
    (Derives.one .name (by decide))).reshape ?_ ?_
  · intro operand
    cases operand with
    | number numeral => exact ⟨.inl (.inl numeral), rfl⟩
    | text piece => exact ⟨.inl (.inr piece), rfl⟩
    | name piece => exact ⟨.inr piece, rfl⟩
  · rintro ((numeral | piece) | piece)
    · exact ⟨.number numeral, rfl⟩
    · exact ⟨.text piece, rfl⟩
    · exact ⟨.name piece, rfl⟩

theorem derives_expression : Derives Grammar.expression Expression.tokens :=
  derives_operand.chain.chain

theorem derives_heading : Derives Grammar.heading Heading.tokens := by
  refine ((((Derives.one .varWord (by decide)).mul (Derives.one .name (by decide))).mul
    (Derives.one .equals (by decide))).add ((Derives.one .name (by decide)).mul
      (Derives.one .equals (by decide)))).add (Derives.one .printWord (by decide))
    |>.reshape ?_ ?_
  · intro heading
    cases heading with
    | declaration word name equals => exact ⟨.inl (.inl ((word, name), equals)), rfl⟩
    | assignment name equals => exact ⟨.inl (.inr (name, equals)), rfl⟩
    | print word => exact ⟨.inr word, rfl⟩
  · rintro ((⟨⟨word, name⟩, equals⟩ | ⟨name, equals⟩) | word)
    · exact ⟨.declaration word name equals, rfl⟩
    · exact ⟨.assignment name equals, rfl⟩
    · exact ⟨.print word, rfl⟩

theorem derives_statement : Derives Grammar.statement Statement.tokens :=
  ((derives_heading.mul derives_expression).mul (Derives.one .semicolon (by decide))).reshape
    (fun ⟨heading, value, semicolon⟩ => ⟨((heading, value), semicolon), rfl⟩)
    (fun ⟨⟨heading, value⟩, semicolon⟩ => ⟨⟨heading, value, semicolon⟩, rfl⟩)

/-- The lists of tokens that have a word of the grammar, and whose numbers denote doubles, are
exactly the tokens of derivations. -/
theorem derives_program :
    Derives Grammar.program fun statements : List Statement =>
      statements.flatMap Statement.tokens :=
  derives_statement.kstar

/-! ## Operands and operators in the order of the text -/

/-- A leaf or an operator of a tree. -/
inductive Mark
  | leaf (tree : Tree)
  | sign (operator : Operator)

/-- The leaves and the operators of a tree from left to right.  A statement in the place of an
operand counts as a leaf. -/
def Tree.inOrder : Tree → List Mark
  | operation left operator right _ => left.inOrder ++ .sign operator :: right.inOrder
  | tree => [.leaf tree]

/-- The leaf or the operator that a token stands for.  A leaf has the span of its token. -/
def Token.mark? (token : Token) : Option Mark :=
  match token.kind with
  | .number =>
    (Number.ofNumeral? token.lexeme).map fun value => .leaf (.number value token.span)
  | .text => some (.leaf (.text token.lexeme token.span))
  | .name => some (.leaf (.reference token.lexeme token.span))
  | .plus => some (.sign .add)
  | .minus => some (.sign .subtract)
  | .star => some (.sign .multiply)
  | .slash => some (.sign .divide)
  | _ => none

theorem Operand.mark?_token (operand : Operand) :
    operand.token.mark? = some (.leaf operand.tree) := by
  cases operand with
  | number numeral =>
    simp [token, tree, Piece.token, Token.mark?, numeral.denotes]
  | text piece => rfl
  | name piece => rfl

theorem Sign.mark?_token {rank : Grammar.Rank} (sign : Sign rank) :
    sign.token.mark? = some (.sign sign.operator) := by
  obtain ⟨operator, -, piece⟩ := sign
  cases operator <;> rfl

/-- If the marks of every item are its tokens, so they are for a chain. -/
theorem Chain.inOrder_treeBy {rank : Grammar.Rank} {α : Type} {tokens : α → List Token}
    {tree : α → Tree} (inOrder : ∀ a, (tree a).inOrder.map some = (tokens a).map Token.mark?)
    (chain : Chain rank α) :
    (chain.treeBy tree).inOrder.map some = (chain.tokensBy tokens).map Token.mark? := by
  induction chain using Chain.pushInduction with
  | single first => simp [inOrder]
  | push chain sign next ih =>
    rw [treeBy_push, tokensBy_push, Tree.joined, Tree.inOrder, List.map_append, List.map_append,
      ih, List.map_cons, List.map_cons, inOrder, sign.mark?_token]

theorem Term.inOrder_tree (term : Term) :
    term.tree.inOrder.map some = term.tokens.map Token.mark? := by
  refine Chain.inOrder_treeBy (fun operand => ?_) term
  rw [List.map_singleton, operand.mark?_token]
  cases operand <;> rfl

/-- The leaves and operators of the tree of an expression are its tokens. -/
theorem Expression.inOrder_tree (expression : Expression) :
    expression.tree.inOrder.map some = expression.tokens.map Token.mark? :=
  Chain.inOrder_treeBy Term.inOrder_tree expression

/-! ## Where trees stand -/

/-- The span from the start of the first token to the end of the last one. -/
def Token.reach (tokens : List Token) : Span :=
  ⟨(tokens.head?.map (·.span.start)).getD 0, (tokens.getLast?.map (·.span.stop)).getD 0⟩

theorem Token.reach_of_ends {tokens front tail : List Token} {first last : Token}
    (cons_eq : tokens = first :: tail) (concat_eq : tokens = front ++ [last]) :
    Token.reach tokens = ⟨first.span.start, last.span.stop⟩ := by
  have head_eq : tokens.head? = some first := by rw [cons_eq, List.head?_cons]
  have last_eq : tokens.getLast? = some last := by rw [concat_eq, List.getLast?_concat]
  rw [reach, head_eq, last_eq]
  rfl

theorem Token.reach_append {first second : List Token} (firstNonempty : first ≠ [])
    (secondNonempty : second ≠ []) :
    Token.reach (first ++ second) = ⟨(Token.reach first).start, (Token.reach second).stop⟩ := by
  rw [Token.reach, Token.reach, Token.reach, List.head?_append_of_ne_nil _ firstNonempty,
    List.getLast?_append_of_ne_nil _ secondNonempty]

/-- Every operation of the tree reaches from the start of its left operand to the end of its
right one. -/
def Tree.OperationsReach : Tree → Prop
  | operation left _ right span =>
    span = ⟨left.span.start, right.span.stop⟩ ∧ left.OperationsReach ∧ right.OperationsReach
  | assign _ value _ => value.OperationsReach
  | print value _ => value.OperationsReach
  | _ => True

/-- What is known of the tree that a list of tokens is read as: it reaches over all of them,
and every operation in it over its operands. -/
structure Tree.Over (tree : Tree) (tokens : List Token) : Prop where
  nonempty : tokens ≠ []
  span_eq : tree.span = Token.reach tokens
  operations : tree.OperationsReach

theorem Operand.over_token (operand : Operand) : operand.tree.Over [operand.token] := by
  refine ⟨List.cons_ne_nil _ _, ?_, ?_⟩
  · cases operand <;> rfl
  · cases operand <;> trivial

theorem Chain.over_tokensBy {rank : Grammar.Rank} {α : Type} {tokens : α → List Token}
    {tree : α → Tree} (items : ∀ a, (tree a).Over (tokens a)) (chain : Chain rank α) :
    (chain.treeBy tree).Over (chain.tokensBy tokens) := by
  induction chain using Chain.pushInduction with
  | single first => simpa using items first
  | push chain sign next ih =>
    rw [treeBy_push, tokensBy_push]
    refine ⟨by simp, ?_, rfl, ih.operations, (items next).operations⟩
    rw [Token.reach_append ih.nonempty (List.cons_ne_nil _ _), ← List.singleton_append,
      Token.reach_append (List.cons_ne_nil _ _) (items next).nonempty, ← ih.span_eq,
      ← (items next).span_eq]
    rfl

theorem Expression.over_tokens (expression : Expression) :
    expression.tree.Over expression.tokens :=
  Chain.over_tokensBy (Chain.over_tokensBy Operand.over_token) expression

/-- The tree of a statement reaches from its first token to its semicolon. -/
theorem Statement.over_tokens (statement : Statement) :
    statement.tree.Over statement.tokens := by
  have value := statement.value.over_tokens
  have heading : statement.heading.tokens ≠ [] ∧
      (Token.reach statement.heading.tokens).start = statement.heading.start := by
    cases statement.heading <;> exact ⟨List.cons_ne_nil _ _, rfl⟩
  have span_eq : statement.tree.span =
      ⟨statement.heading.start, statement.semicolon.span.stop⟩ := by
    simp only [tree]
    cases statement.heading <;> rfl
  refine ⟨by simp [tokens], ?_, ?_⟩
  · rw [span_eq, tokens, List.append_assoc, Token.reach_append heading.1 (by simp), heading.2,
      Token.reach_append value.nonempty (List.cons_ne_nil _ _)]
    rfl
  · simp only [tree]
    cases statement.heading <;> exact value.operations

end PrintLang
