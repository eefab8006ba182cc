import PrintLang.Proofs.Culprit
import PrintLang.Proofs.Grammar.Part
import PrintLang.Proofs.Pieces

/-!
# Where trees stand

A program is read from tokens that stand in the text one after the other.  The span of every node
goes from the start of a token to the end of another one that does not stand before it, so it is
not empty and does not reach out of the text.

This is shown along derivations.  The only thing that a rule of the grammar needs to know of its
tokens is that they stand in this way, and so do the tokens of each of its parts.

## Main Definitions

* `Span.Inside` — a span of at least one character of a text
* `Token.Stand` — some tokens of a text, in its order
* `Tree.NodeIn`, `Tree.ExpressionIn`, `Tree.StatementIn` — trees that were read from a text

## Main Statements

* `Token.Stand.reach_stop_le`, `Token.Stand.reach_within` — parts of tokens, one after the other
* `Token.Stand.reach_inside` — tokens reach over characters of the text
* `Expression.expressionIn` — so does every node of an expression
* `Reads.statementIn` — so do the statements of a program, and all nodes in them
-/

namespace PrintLang

/-! ## Tokens that stand in a text -/

/-- The span contains a character, and only characters of a text of the given length. -/
structure Span.Inside (span : Span) (length : Nat) : Prop where
  start_lt_stop : span.start < span.stop
  stop_le_length : span.stop ≤ length

/-- One span lies within another one. -/
structure Span.Within (span other : Span) : Prop where
  start_le : other.start ≤ span.start
  stop_le : span.stop ≤ other.stop

/-- At a span inside a text there is something. -/
theorem Span.Inside.slice_ne_nil {span : Span} {text : List Char}
    (inside : span.Inside text.length) : span.slice text ≠ [] := by
  refine List.ne_nil_of_length_pos ?_
  rw [length_slice inside.stop_le_length]
  exact Nat.sub_pos_of_lt inside.start_lt_stop

/-- The last character before a position of the text, if it is not the first position. -/
theorem Span.inside_atEnd {stop length : Nat} (positive : 0 < stop) (bound : stop ≤ length) :
    (Span.atEnd stop).Inside length :=
  ⟨Nat.sub_lt positive Nat.one_pos, bound⟩

namespace Token

theorem Fits.inside {token : Token} {text : List Char} (fits : token.Fits text) :
    token.span.Inside text.length :=
  ⟨fits.start_lt_stop, fits.stop_le_length⟩

/-- Some tokens of a text in its order, not necessarily all of them. -/
structure Stand (text : List Char) (tokens : List Token) : Prop where
  fits : ∀ token ∈ tokens, token.Fits text
  ordered : tokens.Pairwise fun earlier later => earlier.span.stop ≤ later.span.start

namespace Stand

variable {text : List Char} {tokens part first second : List Token}

theorem sublist (stand : Stand text tokens) (isPart : part.Sublist tokens) : Stand text part :=
  ⟨fun token member => stand.fits token (isPart.subset member), stand.ordered.sublist isPart⟩

theorem left (stand : Stand text (first ++ second)) : Stand text first :=
  stand.sublist (List.sublist_append_left first second)

theorem right (stand : Stand text (first ++ second)) : Stand text second :=
  stand.sublist (List.sublist_append_right first second)

theorem tail {token : Token} (stand : Stand text (token :: tokens)) : Stand text tokens :=
  stand.sublist (List.sublist_cons_self token tokens)

/-- From the start of the first token to the end of the last one there is some text. -/
theorem reach_inside (stand : Stand text tokens) (nonempty : tokens ≠ []) :
    (reach tokens).Inside text.length := by
  induction tokens with
  | nil => exact absurd rfl nonempty
  | cons token rest ih =>
    have here := stand.fits token List.mem_cons_self
    cases rest with
    | nil => exact here.inside
    | cons next rest =>
      have others := ih (stand.tail) (List.cons_ne_nil _ _)
      have before := (List.pairwise_cons.mp stand.ordered).1 next List.mem_cons_self
      have reach_eq := reach_append (List.cons_ne_nil token []) (List.cons_ne_nil next rest)
      rw [← List.singleton_append, reach_eq]
      refine ⟨?_, others.stop_le_length⟩
      have nextStart : (reach (next :: rest)).start = next.span.start := rfl
      have start_lt := others.start_lt_stop
      have here_lt := here.start_lt_stop
      show token.span.start < (reach (next :: rest)).stop
      omega

/-- Tokens that stand before others end before these start. -/
theorem reach_stop_le (stand : Stand text (first ++ second)) (firstNonempty : first ≠ [])
    (secondNonempty : second ≠ []) : (reach first).stop ≤ (reach second).start := by
  obtain ⟨front, last, rfl⟩ := first.eq_nil_or_concat'.resolve_left firstNonempty
  obtain ⟨token, rest, rfl⟩ := List.exists_cons_of_ne_nil secondNonempty
  have ordered := (List.pairwise_append.mp stand.ordered).2.2
  have stop_eq : (reach (front ++ [last])).stop = last.span.stop := by simp [reach]
  rw [stop_eq]
  exact ordered last (List.mem_append_right _ (List.mem_singleton_self _)) token List.mem_cons_self

theorem reach_within_left (stand : Stand text (first ++ second)) (nonempty : first ≠ []) :
    (reach first).Within (reach (first ++ second)) := by
  by_cases nothing : second = []
  · rw [nothing, List.append_nil]
    exact ⟨le_rfl, le_rfl⟩
  · have ordered := stand.reach_stop_le nonempty nothing
    have inside := stand.right.reach_inside nothing
    rw [reach_append nonempty nothing]
    exact ⟨le_rfl, ordered.trans inside.start_lt_stop.le⟩

theorem reach_within_right (stand : Stand text (first ++ second)) (nonempty : second ≠ []) :
    (reach second).Within (reach (first ++ second)) := by
  by_cases nothing : first = []
  · rw [nothing, List.nil_append]
    exact ⟨le_rfl, le_rfl⟩
  · have ordered := stand.reach_stop_le nothing nonempty
    have inside := stand.left.reach_inside nothing
    rw [reach_append nothing nonempty]
    exact ⟨inside.start_lt_stop.le.trans ordered, le_rfl⟩

/-- Some neighbouring tokens reach over a part of what all of them reach over. -/
theorem reach_within (stand : Stand text tokens) (isPart : part <:+: tokens)
    (nonempty : part ≠ []) : (reach part).Within (reach tokens) := by
  obtain ⟨before, after, rfl⟩ := isPart
  have upTo := stand.left.reach_within_right nonempty
  have whole := stand.reach_within_left (List.append_ne_nil_of_right_ne_nil before nonempty)
  exact ⟨whole.start_le.trans upTo.start_le, upTo.stop_le.trans whole.stop_le⟩

end Stand

end Token

/-! ## Expressions -/

/-- What is known of a node of an expression that was read from a text: it has characters there,
they are its name if it is one, and it is no statement. -/
structure Tree.NodeIn (text : List Char) (node : Tree) : Prop where
  inside : node.span.Inside text.length
  reads_name : ∀ name span, node = .reference name span → span.slice text = name.toList
  writes_nothing : ¬ node.Writes

/-- All nodes of an expression that was read from a text. -/
def Tree.ExpressionIn (text : List Char) (tree : Tree) : Prop :=
  ∀ node ∈ tree.visits, node.NodeIn text

variable {text : List Char}

/-- An operand stands where its token does. -/
theorem Operand.expressionIn (operand : Operand) (fits : operand.token.Fits text) :
    operand.tree.ExpressionIn text := by
  intro node member
  cases operand with
  | number numeral =>
    obtain rfl := List.mem_singleton.mp member
    exact ⟨fits.inside, nofun, id⟩
  | text piece =>
    obtain rfl := List.mem_singleton.mp member
    exact ⟨fits.inside, nofun, id⟩
  | name piece =>
    obtain rfl := List.mem_singleton.mp member
    refine ⟨fits.inside, fun name span same => ?_, id⟩
    cases same
    exact fits.slice_eq nofun

/-- If items stand where their tokens do, so does a chain of them. -/
theorem Chain.expressionIn {rank : Grammar.Rank} {α : Type} {tokens : α → List Token}
    {tree : α → Tree} (reaches : ∀ a, (tree a).Over (tokens a))
    (items : ∀ a, Token.Stand text (tokens a) → (tree a).ExpressionIn text)
    (chain : Chain rank α) (stand : Token.Stand text (chain.tokensBy tokens)) :
    (chain.treeBy tree).ExpressionIn text := by
  induction chain using Chain.pushInduction with
  | single first =>
    rw [tokensBy_single] at stand
    exact items first stand
  | push chain sign next ih =>
    have whole := Chain.over_tokensBy reaches (chain.push sign next)
    have inside := stand.reach_inside whole.nonempty
    rw [← whole.span_eq] at inside
    rw [tokensBy_push] at stand
    rw [treeBy_push] at inside ⊢
    intro node member
    rcases List.mem_append.mp member with member | member
    · -- The operands have tokens of their own; the sign stands between them.
      rcases List.mem_append.mp member with member | member
      · exact ih stand.left node member
      · exact items next stand.right.tail node member
    · obtain rfl := List.mem_singleton.mp member
      exact ⟨inside, nofun, id⟩

theorem Expression.expressionIn (expression : Expression)
    (stand : Token.Stand text expression.tokens) : expression.tree.ExpressionIn text := by
  have operands (operand : Operand) (stand : Token.Stand text [operand.token]) :
      operand.tree.ExpressionIn text :=
    operand.expressionIn (stand.fits _ (List.mem_singleton_self _))
  exact Chain.expressionIn (Chain.over_tokensBy Operand.over_token)
    (Chain.expressionIn Operand.over_token operands) expression stand

/-! ## Programs -/

/-- What is known of a statement that was read from a text. -/
structure Tree.StatementIn (text : List Char) (statement : Tree) : Prop where
  inside : statement.span.Inside text.length
  writes : statement.Writes
  subject : statement.subject.ExpressionIn text

theorem Statement.statementIn (statement : Statement) (stand : Token.Stand text statement.tokens) :
    statement.tree.StatementIn text := by
  have reaches := statement.over_tokens
  have inside := stand.reach_inside reaches.nonempty
  rw [← reaches.span_eq] at inside
  have value := statement.value.expressionIn stand.left.right
  obtain ⟨heading, expression, semicolon⟩ := statement
  cases heading with
  | declaration | assignment | print => exact ⟨inside, trivial, value⟩

/-- The tokens of a program stand in its text. -/
theorem Reads.Tokens.stand {source : String} {statements : List Tree} {tokens : List Token}
    (read : Reads.Tokens source statements tokens) : Token.Stand source.toList tokens := by
  have segmentation := read.lexes.segmentation (fun _ _ => nofun) List.drop_zero
  exact ⟨segmentation.fits, segmentation.ordered⟩

/-- The tokens of a program have a derivation. -/
theorem Reads.Tokens.exists_program {source : String} {statements : List Tree}
    {tokens : List Token} (read : Reads.Tokens source statements tokens) :
    ∃ program : List Statement, program.flatMap Statement.tokens = tokens ∧
      program.map Statement.tree = statements := by
  have accepted : Tree.ofTokens (tokens ++ [⟨.endOfInput, "", .atEnd source.length⟩]) = _ :=
    read.ofTokens_eq rfl
  obtain ⟨program, same, trees_eq⟩ := Tree.exists_derivation_of_ofTokens accepted
  rw [Token.beforeEnd_concat read.noEnd rfl] at same
  exact ⟨program, same, trees_eq⟩

/-- All statements of a program stand in its text. -/
theorem Reads.statementIn {source : String} {statements : List Tree}
    (reads : Reads source statements) :
    ∀ statement ∈ statements, statement.StatementIn source.toList := by
  obtain ⟨tokens, read⟩ := reads.exists_tokens
  obtain ⟨program, rfl, rfl⟩ := read.exists_program
  intro tree member
  obtain ⟨statement, isPart, rfl⟩ := List.mem_map.mp member
  exact statement.statementIn (read.stand.sublist (Statement.tokens_infix isPart).sublist)

end PrintLang
