import PrintLang.Proofs.Grammar.Part
import PrintLang.Proofs.Standing
import PrintLang.Proofs.Token.Part

/-!
# Excerpts of programs

The span of a node is exactly the text that the node was read from.  If this text is cut out and
read on its own, the same node comes out: a statement by itself, and an expression as what is
printed by a print statement.

The tokens of a node are next to each other and reach over its span, so they are the lexemes of the
excerpt.  Moved to where the excerpt is read, they have the same words, so that they are derived in
the same way and make the same tree there.

Beside that, the nodes of a program are nested as they should be: the children of a node lie inside
it, one after the other, and so do the statements of a program.

## Main Definitions

* `Span.excerpt` — the text at a span of a source text
* `Tree.Nests` — the children of a node lie inside it, one after the other
* `Tree.ReadFrom` — a node that can be read from its excerpt

## Main Statements

* `Lexes.reads`, `Lexes.printed` — lexemes of a program, and of an expression that is printed
* `Expression.nests`, `Statement.nests` — how the nodes of a program are nested
* `Reads.read_from_excerpts` — every node of a program can be read from its excerpt
-/

namespace PrintLang

/-! ## Nesting -/

/-- The children of a node lie inside it, one after the other. -/
def Tree.Nests : Tree → Prop
  | assign _ value span | print value span => value.span.Within span
  | operation left _ right span =>
    left.span.Within span ∧ right.span.Within span ∧ left.span.stop ≤ right.span.start
  | number _ _ | text _ _ | reference _ _ => True

variable {text : List Char}

theorem Operand.nests (operand : Operand) : operand.tree.Nests := by
  cases operand <;> trivial

/-- A chain nests if its items do: every operation stands between its operands. -/
theorem Chain.nests {rank : Grammar.Rank} {α : Type} {tokens : α → List Token} {tree : α → Tree}
    (reaches : ∀ a, (tree a).Over (tokens a))
    (items : ∀ a, Token.Stand text (tokens a) → (tree a).Nests)
    (chain : Chain rank α) (stand : Token.Stand text (chain.tokensBy tokens)) :
    (chain.treeBy tree).Nests := by
  induction chain using Chain.pushInduction with
  | single first =>
    rw [tokensBy_single] at stand
    exact items first stand
  | push chain sign next _ =>
    have whole := Chain.over_tokensBy reaches (chain.push sign next)
    have left := Chain.over_tokensBy reaches chain
    have right := reaches next
    have whole_span := whole.span_eq
    rw [treeBy_push, tokensBy_push] at whole_span
    rw [tokensBy_push] at stand
    rw [treeBy_push]
    have rightWithin := stand.reach_within
      ((List.suffix_cons sign.token (tokens next)).trans (List.suffix_append _ _)).isInfix
      right.nonempty
    have apart : Token.Stand text (chain.tokensBy tokens ++ tokens next) :=
      stand.sublist ((List.sublist_cons_self _ _).append_left _)
    have ordered := apart.reach_stop_le left.nonempty right.nonempty
    have leftWithin := stand.reach_within_left left.nonempty
    rw [← whole_span, ← left.span_eq] at leftWithin
    rw [← whole_span, ← right.span_eq] at rightWithin
    rw [← left.span_eq, ← right.span_eq] at ordered
    exact ⟨leftWithin, rightWithin, ordered⟩

theorem Expression.nests (expression : Expression) (stand : Token.Stand text expression.tokens) :
    expression.tree.Nests :=
  Chain.nests (Chain.over_tokensBy Operand.over_token)
    (Chain.nests Operand.over_token fun operand _ => operand.nests) expression stand

theorem Statement.writes_tree (statement : Statement) : statement.tree.Writes := by
  obtain ⟨heading, -, -⟩ := statement
  cases heading <;> trivial

theorem Statement.nests (statement : Statement) (stand : Token.Stand text statement.tokens) :
    statement.tree.Nests := by
  have value := statement.value.over_tokens
  have within := stand.reach_within statement.value_infix value.nonempty
  rw [← value.span_eq, ← statement.over_tokens.span_eq] at within
  obtain ⟨heading, expression, semicolon⟩ := statement
  cases heading <;> exact within

/-- The statements of a program stand one after the other. -/
theorem Statement.pairwise_of_stand (program : List Statement)
    (stand : Token.Stand text (program.flatMap Statement.tokens)) :
    (program.map Statement.tree).Pairwise fun earlier later =>
      earlier.span.stop ≤ later.span.start := by
  induction program with
  | nil => exact .nil
  | cons statement program ih =>
    refine List.Pairwise.cons (fun later member => ?_) (ih stand.right)
    obtain ⟨other, isLater, rfl⟩ := List.mem_map.mp member
    have others := (Statement.tokens_infix isLater).sublist
    have apart : Token.Stand text (statement.tokens ++ other.tokens) :=
      stand.sublist (others.append_left _)
    rw [statement.over_tokens.span_eq, other.over_tokens.span_eq]
    exact apart.reach_stop_le statement.over_tokens.nonempty other.over_tokens.nonempty

/-! ## Reading lexemes -/

/-- A text whose lexemes make the tokens of a statement is a program of this statement. -/
theorem Lexes.reads {source : String} {statement : Statement}
    (lexes : Lexes 0 source.toList statement.tokens .complete) : Reads source [statement.tree] := by
  have noEnd := (lexes.segmentation (fun _ _ => nofun) List.drop_zero).kind_ne_endOfInput
  have same : [statement].flatMap Statement.tokens =
      Token.beforeEnd (statement.tokens ++ [⟨.endOfInput, "", .atEnd source.length⟩]) := by
    rw [Token.beforeEnd_concat noEnd rfl, List.flatMap_singleton]
  exact ⟨_, lexes.scan_eq, Tree.ofTokens_of_derivation same⟩

/-- The statement that prints an expression of the given length, from the position zero on. -/
def Expression.printed (expression : Expression) (length : Nat) : Statement :=
  ⟨.print ⟨"print", ⟨0, 5⟩⟩, expression, ⟨";", ⟨6 + length, 6 + length + 1⟩⟩⟩

/-- The lexemes of an expression stay what they are in a print statement. -/
theorem Lexes.printed {original : List Token} {expression : Expression}
    (lexes : Lexes 0 text original .complete)
    (same : expression.tokens = original.map (Token.relocate (.shift 6))) :
    Lexes 0 ("print ".toList ++ text ++ ";".toList) (expression.printed text.length).tokens
      .complete := by
  have word : Lexeme "print".toList (' ' :: (text ++ [';'])) (some (.printWord, "print")) := by
    refine .word (TokenKind.isWord_of_mem_keywords (by decide)) fun c isNext => ?_
    obtain rfl := Option.some.inj isNext
    decide
  have separator : Lexeme [' '] (text ++ [';']) none := .separator rfl
  have semicolon : Lexes (6 + text.length) [';'] _ .complete := .lexeme (.sign rfl) .complete
  have seam : Seam expression.tokens [';'] :=
    seam_of_mem_punctuation (by decide) (by decide) _ _
  have value := lexes.shift 6
  rw [← same, Nat.zero_add] at value
  exact .lexeme word (.lexeme separator (value.append seam semicolon))

theorem Lexes.reads_printed {original : List Token} {expression : Expression}
    (lexes : Lexes 0 text original .complete)
    (same : expression.tokens = original.map (Token.relocate (.shift 6))) :
    Reads ("print " ++ String.ofList text ++ ";")
      [.print expression.tree ⟨0, 6 + text.length + 1⟩] := by
  have printed := lexes.printed same
  rw [← String.toList_ofList (l := text), ← String.toList_append, ← String.toList_append] at printed
  rw [String.toList_ofList] at printed
  exact printed.reads

/-! ## Reading excerpts -/

/-- The text at a span of a source text. -/
def Span.excerpt (span : Span) (source : String) : String :=
  String.ofList (span.slice source.toList)

/-- A node can be read from its excerpt, where it starts earlier: a statement by itself, and an
expression in a print statement, behind six other characters. -/
structure Tree.ReadFrom (source : String) (node : Tree) : Prop where
  inside : node.span.Inside source.length
  statement : node.Writes → ∃ moved, Reads (node.span.excerpt source) [moved] ∧
    moved.relocate (.shift node.span.start) = node
  expression : ¬ node.Writes → ∃ moved span,
    Reads ("print " ++ node.span.excerpt source ++ ";") [.print moved span] ∧
      moved.relocate (.shift node.span.start) = node.relocate (.shift 6)

variable {source : String} {tokens : List Token}

/-- The excerpt of a node lies in the text that the tokens of the node stand in. -/
theorem Tree.Over.inside {node : Tree} {part : List Token} (reaches : node.Over part)
    (stand : Token.Stand source.toList part) : node.span.Inside source.length := by
  have inside := stand.reach_inside reaches.nonempty
  rwa [← reaches.span_eq, String.length_toList] at inside

/-- The lexemes of the excerpt of a node have the words of the node's tokens, and are moved to them
where the excerpt is. -/
theorem Lexes.exists_excerpt (lexes : Lexes 0 source.toList tokens .complete) {node : Tree}
    {part : List Token} (reaches : node.Over part) (isPart : part <:+: tokens) :
    ∃ original, Lexes 0 (node.span.slice source.toList) original .complete ∧
      original.map Token.word = part.map Token.word ∧
      original.map (Token.relocate (.shift node.span.start)) = part := by
  have slice := lexes.slice isPart reaches.nonempty
  rw [← reaches.span_eq, ← Nat.zero_add node.span.start] at slice
  obtain ⟨original, alone, moved_eq⟩ := slice.exists_shift
  have words_eq := congrArg (List.map Token.word) moved_eq
  rw [Token.map_word_relocate] at words_eq
  exact ⟨original, alone, words_eq, moved_eq⟩

theorem Statement.readFrom (statement : Statement)
    (lexes : Lexes 0 source.toList tokens .complete) (stand : Token.Stand source.toList tokens)
    (isPart : statement.tokens <:+: tokens) : statement.tree.ReadFrom source := by
  have reaches := statement.over_tokens
  have inside := reaches.inside (stand.sublist isPart.sublist)
  refine ⟨inside, fun _ => ?_, fun silent => absurd statement.writes_tree silent⟩
  obtain ⟨original, alone, words_eq, moved_eq⟩ := lexes.exists_excerpt reaches isPart
  obtain ⟨moved, rfl⟩ := derives_statement.exists_of_words words_eq
  refine ⟨moved.tree, ?_, (Statement.tree_eq_relocate moved_eq.symm).symm⟩
  rw [← String.toList_ofList (l := statement.tree.span.slice source.toList)] at alone
  exact alone.reads

theorem Expression.readFrom (expression : Expression)
    (lexes : Lexes 0 source.toList tokens .complete) (stand : Token.Stand source.toList tokens)
    (isPart : expression.tokens <:+: tokens) : expression.tree.ReadFrom source := by
  have reaches := expression.over_tokens
  have standing := stand.sublist isPart.sublist
  have silent : ¬ expression.tree.Writes :=
    (expression.expressionIn standing _ expression.tree.mem_visits_self).writes_nothing
  refine ⟨reaches.inside standing, fun writes => absurd writes silent, fun _ => ?_⟩
  obtain ⟨original, alone, words_eq, moved_eq⟩ := lexes.exists_excerpt reaches isPart
  -- The expression that is printed, and where both it and the given one are moved to.
  have printed_words : (original.map (Token.relocate (.shift 6))).map Token.word =
      expression.tokens.map Token.word := by rw [Token.map_word_relocate, words_eq]
  obtain ⟨moved, tokens_eq⟩ := derives_expression.exists_of_words printed_words
  obtain ⟨common, common_eq⟩ := derives_expression.exists_of_words
    (Token.map_word_relocate (.shift 6) expression.tokens)
  have from_expression := Expression.tree_eq_relocate common_eq
  have from_moved : common.tree = moved.tree.relocate (.shift expression.tree.span.start) := by
    refine Expression.tree_eq_relocate ?_
    rw [common_eq, tokens_eq, ← moved_eq, List.map_map, List.map_map]
    exact List.map_congr_left fun token _ => Token.relocate_shift_comm token _ _
  exact ⟨moved.tree, _, alone.reads_printed tokens_eq, from_moved.symm.trans from_expression⟩

/-! ## All nodes -/

/-- All nodes of a statement, given that its tokens are next to each other in the text. -/
theorem Statement.nodes_readFrom (statement : Statement)
    (lexes : Lexes 0 source.toList tokens .complete) (stand : Token.Stand source.toList tokens)
    (isPart : statement.tokens <:+: tokens) :
    ∀ node ∈ statement.tree.nodes, node.ReadFrom source ∧ node.Nests := by
  intro node member
  rw [statement.nodes_tree] at member
  rcases List.mem_cons.mp member with rfl | member
  · exact ⟨statement.readFrom lexes stand isPart, statement.nests (stand.sublist isPart.sublist)⟩
  · obtain ⟨part, rfl, partOf⟩ := statement.value.exists_part node member
    have partIn := (partOf.trans statement.value_infix).trans isPart
    exact ⟨part.readFrom lexes stand partIn, part.nests (stand.sublist partIn.sublist)⟩

/-- **Every node of a program can be read from its excerpt.**

If the text at the span of a statement is read on its own, it is this statement, moved back to the
position zero.  If the text at the span of an expression, at any depth, is printed by a print
statement, then this expression is what is printed, moved to where it is found there.  The children
of a node lie inside it, the left operand before the right one, and the statements stand one after
the other. -/
theorem Reads.read_from_excerpts {statements : List Tree} (reads : Reads source statements) :
    (∀ statement ∈ statements, statement.Writes ∧
      ∀ node ∈ statement.nodes, node.ReadFrom source ∧ node.Nests) ∧
      statements.Pairwise fun earlier later => earlier.span.stop ≤ later.span.start := by
  obtain ⟨tokens, read⟩ := reads.exists_tokens
  obtain ⟨program, rfl, rfl⟩ := read.exists_program
  refine ⟨fun tree member => ?_, Statement.pairwise_of_stand program read.stand⟩
  obtain ⟨statement, isPart, rfl⟩ := List.mem_map.mp member
  have tokensIn := Statement.tokens_infix isPart
  exact ⟨statement.writes_tree, statement.nodes_readFrom read.lexes read.stand tokensIn⟩

/-- A product in an assignment, and a statement behind it. -/
theorem Reads.read_from_excerpts_product :
    let product := Tree.operation (.reference "a" ⟨4, 5⟩) .multiply (.text "b" ⟨6, 9⟩) ⟨4, 9⟩
    let statement := Tree.print (.reference "y" ⟨17, 18⟩) ⟨11, 19⟩
    Reads "x = a*\"b\"; print y;" [.assign "x" product ⟨0, 10⟩, statement] ∧
      product.ReadFrom "x = a*\"b\"; print y;" ∧ statement.ReadFrom "x = a*\"b\"; print y;" := by
  intro product statement
  have reads : Reads "x = a*\"b\"; print y;" [.assign "x" product ⟨0, 10⟩, statement] :=
    ⟨_, rfl, rfl⟩
  obtain ⟨nodes, -⟩ := reads.read_from_excerpts
  rw [List.forall_mem_cons, List.forall_mem_singleton] at nodes
  obtain ⟨⟨-, inAssignment⟩, -, inStatement⟩ := nodes
  exact ⟨reads, (inAssignment product (by simp [Tree.nodes, product])).1,
    (inStatement statement (by simp [Tree.nodes, statement])).1⟩

end PrintLang
