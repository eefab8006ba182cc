import PrintLang.Proofs.EvaluationOrder
import PrintLang.Proofs.Grammar.Reading
import PrintLang.Proofs.Relocation

/-!
# Parts of derivations

Every node of the tree of an expression is the tree of a part of it, that is, of an expression that
some neighbouring tokens make.  For an operand this is its token; for a chain it is the chain up to
one of its items, so the tokens of a node are always next to each other.

What a token contributes to a derivation is its kind and its lexeme.  Tokens with the same words are
therefore derived alike, and if they only stand elsewhere, the same tree stands there.

## Main Definitions

* `Tree.nodes` — all nodes of a tree
* `Token.word` — what a token says, wherever it stands

## Main Statements

* `Expression.exists_part`, `Statement.exists_over` — the tokens of a node
* `Derives.exists_of_words` — tokens with the same words are derived alike
* `Statement.tree_eq_relocate`, `Expression.tree_eq_relocate` — the tree of moved tokens
-/

namespace PrintLang

/-! ## Nodes and their tokens -/

/-- All nodes of a tree, each before those below it. -/
def Tree.nodes : Tree → List Tree
  | assign name value span => assign name value span :: value.nodes
  | print value span => print value span :: value.nodes
  | operation left operator right span =>
    operation left operator right span :: (left.nodes ++ right.nodes)
  | leaf => [leaf]

namespace Tree

/-- A tree is a node of itself. -/
theorem mem_nodes_self (tree : Tree) : tree ∈ tree.nodes := by
  cases tree <;> simp [nodes]

/-- Nodes that are evaluated are nodes. -/
theorem visits_subset_nodes (tree : Tree) : tree.visits ⊆ tree.nodes := by
  induction tree with
  | number | text | reference => exact fun node member => member
  | assign | print => exact List.cons_subset_cons _ (List.nil_subset _)
  | operation left operator right span ihLeft ihRight =>
    intro node member
    rw [visits, List.mem_append, List.mem_append, List.mem_singleton] at member
    rw [nodes, List.mem_cons, List.mem_append]
    rcases member with (inLeft | inRight) | isSelf
    · exact Or.inr (Or.inl (ihLeft inLeft))
    · exact Or.inr (Or.inr (ihRight inRight))
    · exact Or.inl isSelf

/-- Nodes that are evaluated in a statement are nodes of it. -/
theorem mem_nodes_of_mem_visits (statement : Tree) {node : Tree}
    (member : node ∈ statement.subject.visits) : node ∈ statement.nodes := by
  have inSubject := statement.subject.visits_subset_nodes member
  cases statement with
  | assign | print => exact List.mem_cons_of_mem _ inSubject
  | number | text | reference | operation => exact inSubject

end Tree

theorem Operand.nodes_tree (operand : Operand) : operand.tree.nodes = [operand.tree] := by
  cases operand <;> rfl

theorem Statement.nodes_tree (statement : Statement) :
    statement.tree.nodes = statement.tree :: statement.value.tree.nodes := by
  simp only [tree]
  cases statement.heading <;> rfl

/-- The tokens of the expression of a statement are next to each other. -/
theorem Statement.value_infix (statement : Statement) :
    statement.value.tokens <:+: statement.tokens :=
  ⟨statement.heading.tokens, [statement.semicolon.token .semicolon], rfl⟩

/-- The tokens of a statement are next to each other in a program. -/
theorem Statement.tokens_infix {program : List Statement} {statement : Statement}
    (member : statement ∈ program) : statement.tokens <:+: program.flatMap Statement.tokens := by
  rw [List.flatMap_def]
  exact List.infix_of_mem_flatten (List.mem_map_of_mem member)

/-- A node is the tree of an expression that some neighbouring tokens make. -/
def Tree.PartOf (node : Tree) (tokens : List Token) : Prop :=
  ∃ part : Expression, part.tree = node ∧ part.tokens <:+: tokens

theorem Tree.PartOf.trans {node : Tree} {tokens more : List Token} (isPart : node.PartOf tokens)
    (within : tokens <:+: more) : node.PartOf more := by
  obtain ⟨part, tree_eq, tokens_infix⟩ := isPart
  exact ⟨part, tree_eq, tokens_infix.trans within⟩

/-- If the nodes of items are parts of their tokens and chains are expressions, then the nodes of a
chain are parts of its tokens. -/
theorem Chain.exists_part {rank : Grammar.Rank} {α : Type} {tokens : α → List Token}
    {tree : α → Tree} (items : ∀ a, ∀ node ∈ (tree a).nodes, node.PartOf (tokens a))
    (wholes : ∀ chain : Chain rank α, ∃ part : Expression,
      part.tree = chain.treeBy tree ∧ part.tokens = chain.tokensBy tokens)
    (chain : Chain rank α) :
    ∀ node ∈ (chain.treeBy tree).nodes, node.PartOf (chain.tokensBy tokens) := by
  induction chain using Chain.pushInduction with
  | single first =>
    rw [treeBy_single, tokensBy_single]
    exact items first
  | push chain sign next ih =>
    intro node member
    rw [treeBy_push, Tree.joined, Tree.nodes] at member
    rcases List.mem_cons.mp member with rfl | member
    · obtain ⟨part, tree_eq, tokens_eq⟩ := wholes (chain.push sign next)
      rw [treeBy_push] at tree_eq
      exact ⟨part, tree_eq, tokens_eq ▸ List.infix_rfl⟩
    · rw [tokensBy_push]
      rcases List.mem_append.mp member with member | member
      · exact (ih node member).trans (List.prefix_append _ _).isInfix
      · have after : tokens next <:+: chain.tokensBy tokens ++ sign.token :: tokens next :=
          ((List.suffix_cons _ _).trans (List.suffix_append _ _)).isInfix
        exact (items next node member).trans after

/-- Every node of an expression is a part of its tokens. -/
theorem Expression.exists_part (expression : Expression) :
    ∀ node ∈ expression.tree.nodes, node.PartOf expression.tokens := by
  have operands (operand : Operand) :
      ∀ node ∈ operand.tree.nodes, node.PartOf [operand.token] := by
    intro node member
    rw [operand.nodes_tree] at member
    obtain rfl := List.mem_singleton.mp member
    exact ⟨.single (.single operand), rfl, by simp [tokens, Term.tokens]⟩
  refine Chain.exists_part (Chain.exists_part operands fun term => ?_) (fun chain => ?_) expression
  · exact ⟨.single term, rfl, Chain.tokensBy_single _ term⟩
  · exact ⟨chain, rfl, rfl⟩

/-- Every node of a statement reaches over some of its tokens that are next to each other. -/
theorem Statement.exists_over (statement : Statement) :
    ∀ node ∈ statement.tree.nodes, ∃ part, node.Over part ∧ part <:+: statement.tokens := by
  intro node member
  rw [statement.nodes_tree] at member
  rcases List.mem_cons.mp member with rfl | member
  · exact ⟨_, statement.over_tokens, List.infix_rfl⟩
  · obtain ⟨part, rfl, partOf⟩ := statement.value.exists_part node member
    exact ⟨_, part.over_tokens, partOf.trans statement.value_infix⟩

/-! ## Words -/

/-- What a token says, wherever it stands: its kind and its lexeme. -/
def Token.word (token : Token) : TokenKind × String :=
  (token.kind, token.lexeme)

theorem Token.map_word_relocate (relocation : Relocation) (tokens : List Token) :
    (tokens.map (Token.relocate relocation)).map Token.word = tokens.map Token.word := by
  rw [List.map_map]
  rfl

/-- Tokens with the words of a derivation have a derivation. -/
theorem Derives.exists_of_words {α : Type} {words : Language TokenKind} {tokens : α → List Token}
    (derives : Derives words tokens) {a : α} {list : List Token}
    (same : list.map Token.word = (tokens a).map Token.word) : ∃ b, tokens b = list := by
  obtain ⟨member, denote⟩ := (derives (tokens a)).mp ⟨a, rfl⟩
  have kinds_eq : list.map Token.kind = (tokens a).map Token.kind := by
    have firsts := congrArg (List.map Prod.fst) same
    rwa [List.map_map, List.map_map] at firsts
  refine (derives list).mpr ⟨kinds_eq ▸ member, fun token isIn isNumber => ?_⟩
  have word_mem : token.word ∈ (tokens a).map Token.word := same ▸ List.mem_map_of_mem isIn
  obtain ⟨other, otherIn, word_eq⟩ := List.mem_map.mp word_mem
  obtain ⟨kind_eq, lexeme_eq⟩ := Prod.mk.inj word_eq
  rw [← lexeme_eq]
  exact denote other otherIn (kind_eq.trans isNumber)

/-! ## Trees of moved tokens -/

variable {relocation : Relocation}

/-- A statement that is made of moved tokens has the moved tree. -/
theorem Statement.tree_eq_relocate {statement moved : Statement}
    (same : moved.tokens = statement.tokens.map (Token.relocate relocation)) :
    moved.tree = statement.tree.relocate relocation := by
  obtain ⟨stop, fed⟩ := statement.leads #[] 0
  obtain ⟨movedStop, movedFed⟩ := moved.leads #[] (relocation.stop 0)
  have relocated := Reader.feed_relocate relocation #[] ⟨.start, #[], 0⟩ statement.tokens
  rw [fed, ← same] at relocated
  have start_eq : Reader.relocate relocation #[] ⟨.start, #[], 0⟩ =
      ⟨.start, #[], relocation.stop 0⟩ := by
    simp [Reader.relocate, Place.relocate]
  rw [start_eq] at relocated
  have last_eq := Except.ok.inj (movedFed.symm.trans relocated)
  simpa [Reader.relocate] using congrArg Reader.statements last_eq

/-- So does an expression. -/
theorem Expression.tree_eq_relocate {expression moved : Expression}
    (same : moved.tokens = expression.tokens.map (Token.relocate relocation)) :
    moved.tree = expression.tree.relocate relocation := by
  -- Both are the values of print statements, which are statements.
  let printed (expression : Expression) (span : Span) : Statement :=
    ⟨.print ⟨"", span⟩, expression, ⟨"", span⟩⟩
  have tokens_eq : (printed moved ((Span.mk 0 0).relocate relocation)).tokens =
      (printed expression ⟨0, 0⟩).tokens.map (Token.relocate relocation) := by
    simp only [printed, Statement.tokens, same, List.map_append]
    rfl
  exact (Tree.print.inj (Statement.tree_eq_relocate tokens_eq)).1

end PrintLang
