import PrintLang.Proofs.Number.Literal
import PrintLang.Proofs.Pieces
import PrintLang.Proofs.Token.Rendering

/-!
# Printed programs

There are no parentheses in the language, so most trees cannot be written down.  Which of them can
is told by their shape: no sum stands on the right of an operator or below a product, and only an
operand stands on the right of a product.  Besides, names, texts and numbers have to be such that
some token makes them.  Statements that satisfy this are the ones that source texts are read as, and
each of them is read back from the text that puts its operands and operators one after the other.

Spans play no part in this.  They are all set to zero before trees are compared.

## Main Definitions

* `Tree.IsExpression`, `Tree.IsStatement` — the trees that can be written
* `Tree.words` — the kinds and lexemes of a written tree
* `Layout.write`, `Layout.program` — the text of a tree and of a program
* `Tree.bare` — a tree without its spans

## Main Statements

* `Reads.isStatement` — what a source text is read as can be written
* `Layout.readsAs_program` — the tokens of the text of a program
* `Tree.exists_program` — the derivation of a program that can be written
* `Tree.reads_iff_isStatement` — what can be written is what source texts are read as
-/

namespace PrintLang

/-! ## Trees that can be written -/

namespace Tree

/-- The sum or the difference of two expressions. -/
def IsSum : Tree → Prop
  | operation _ operator _ _ => operator.rank = .sum
  | _ => False

/-- A number, a text or a name. -/
def IsLeaf : Tree → Prop
  | number _ _ | text _ _ | reference _ _ => True
  | _ => False

/-- Without parentheses, an operator stands between these operands. -/
def StandsBetween (operator : Operator) (left right : Tree) : Prop :=
  match operator.rank with
  | .sum => ¬ right.IsSum
  | .product => ¬ left.IsSum ∧ right.IsLeaf

/-- An expression that can be written: every operator stands between its operands, every number is
denoted by digits, no text has a quote, and every name is a word that is no keyword. -/
def IsExpression : Tree → Prop
  | operation left operator right _ =>
    StandsBetween operator left right ∧ left.IsExpression ∧ right.IsExpression
  | number value _ => Number.IsLiteral value
  | text value _ => '"' ∉ value.toList
  | reference name _ => TokenKind.name.Spells name.toList
  | assign _ _ _ | print _ _ => False

/-- A statement that can be written. -/
def IsStatement : Tree → Prop
  | assign name value _ => TokenKind.name.Spells name.toList ∧ value.IsExpression
  | print value _ => value.IsExpression
  | _ => False

/-- The kinds and lexemes of a written tree. -/
def words : Tree → List (TokenKind × String)
  | assign name value _ =>
    (.name, name) :: (.equals, "=") :: (value.words ++ [(.semicolon, ";")])
  | print value _ => (.printWord, "print") :: (value.words ++ [(.semicolon, ";")])
  | operation left operator right _ =>
    left.words ++ (operator.kind, operator.symbol) :: right.words
  | number value _ => [(.number, String.ofList (Number.literal value))]
  | text value _ => [(.text, value)]
  | reference name _ => [(.name, name)]

end Tree

/-- The separators in printed programs where they can be chosen: on both sides of every operator,
and after every statement. -/
structure Layout where
  /-- What stands on either side of an operator. -/
  around : String
  /-- What stands after a statement. -/
  after : String
  around_separates : ∀ c ∈ around.toList, isSeparator c = true
  after_separates : ∀ c ∈ after.toList, isSeparator c = true

namespace Layout

/-- Nothing is put where separators can be left out. -/
def plain : Layout :=
  ⟨"", "", List.forall_mem_nil _, List.forall_mem_nil _⟩

variable (layout : Layout)

/-- The text of a tree: operands and operators as they stand in the tree from left to right. -/
def write : Tree → String
  | .assign name value _ => name ++ " = " ++ write value ++ ";" ++ layout.after
  | .print value _ => "print " ++ write value ++ ";" ++ layout.after
  | .operation left operator right _ =>
    write left ++ layout.around ++ operator.symbol ++ layout.around ++ write right
  | .number value _ => String.ofList (Number.literal value)
  | .text value _ => "\"" ++ value ++ "\""
  | .reference name _ => name

/-- The text of a program: its statements one after the other. -/
def program (statements : List Tree) : String :=
  String.join (statements.map layout.write)

end Layout

/-! ## Trees without spans -/

/-- Moves every span to the start of the text. -/
def Relocation.origin : Relocation :=
  ⟨fun _ => 0, fun _ => 0⟩

namespace Tree

/-- The tree without its spans. -/
def bare (tree : Tree) : Tree :=
  tree.relocate .origin

theorem span_bare (tree : Tree) : tree.bare.span = ⟨0, 0⟩ :=
  tree.span_relocate .origin

theorem standsBetween_bare {operator : Operator} {left right : Tree} :
    StandsBetween operator left.bare right.bare ↔ StandsBetween operator left right := by
  have isSum (tree : Tree) : tree.bare.IsSum ↔ tree.IsSum := by cases tree <;> rfl
  have isLeaf : right.bare.IsLeaf ↔ right.IsLeaf := by cases right <;> rfl
  rw [StandsBetween, StandsBetween]
  split
  · rw [isSum]
  · rw [isSum, isLeaf]

theorem isExpression_bare (tree : Tree) : tree.bare.IsExpression ↔ tree.IsExpression := by
  induction tree with
  | number | text | reference | assign | print => rfl
  | operation left operator right span ihLeft ihRight =>
    exact and_congr standsBetween_bare (and_congr ihLeft ihRight)

theorem isStatement_bare (tree : Tree) : tree.bare.IsStatement ↔ tree.IsStatement := by
  cases tree with
  | number | text | reference | operation => rfl
  | assign name value span => exact and_congr_right fun _ => value.isExpression_bare
  | print value span => exact value.isExpression_bare

end Tree

/-! ## What source texts are read as -/

theorem Operand.isLeaf (operand : Operand) : operand.tree.IsLeaf := by
  cases operand <;> trivial

theorem Operand.isExpression (operand : Operand)
    (spelled : Token.IsSpelled operand.token.word) : operand.tree.IsExpression := by
  cases operand with
  | number numeral =>
    have spells : TokenKind.number.Spells numeral.lexeme.toList :=
      (Token.isSpelled_iff (by decide)).mp spelled
    refine IsDigits.isLiteral_of_ofNumeral? spells ?_
    rw [String.ofList_toList]
    exact numeral.denotes
  | text piece => exact Token.isSpelled_text_iff.mp spelled
  | name piece => exact (Token.isSpelled_iff (by decide)).mp spelled

/-- A chain whose operators stand between their operands is an expression if its items are. -/
theorem Chain.isExpression {rank : Grammar.Rank} {α : Type} {tokens : α → List Token}
    {tree : α → Tree}
    (items : ∀ a, (∀ token ∈ tokens a, Token.IsSpelled token.word) → (tree a).IsExpression)
    (stands : ∀ (chain : Chain rank α) (sign : Sign rank) (next : α),
      Tree.StandsBetween sign.operator (chain.treeBy tree) (tree next))
    (chain : Chain rank α)
    (spelled : ∀ token ∈ chain.tokensBy tokens, Token.IsSpelled token.word) :
    (chain.treeBy tree).IsExpression := by
  induction chain using Chain.pushInduction with
  | single first =>
    rw [tokensBy_single] at spelled
    exact items first spelled
  | push chain sign next ih =>
    rw [tokensBy_push] at spelled
    obtain ⟨before, later⟩ := List.forall_mem_append.mp spelled
    rw [treeBy_push]
    exact ⟨stands chain sign next, ih before, items next (List.forall_mem_cons.mp later).2⟩

theorem Term.not_isSum (term : Term) : ¬ term.tree.IsSum := by
  induction term using Chain.pushInduction with
  | single first =>
    cases first <;> exact id
  | push chain sign next _ =>
    rw [Term.tree, Chain.treeBy_push]
    intro isSum
    cases sign.rank_eq.symm.trans isSum

theorem Term.isExpression (term : Term)
    (spelled : ∀ token ∈ term.tokens, Token.IsSpelled token.word) : term.tree.IsExpression := by
  refine Chain.isExpression (fun operand spelled => ?_) (fun chain sign next => ?_) term spelled
  · exact operand.isExpression (spelled _ (List.mem_singleton_self _))
  · rw [Tree.StandsBetween, sign.rank_eq]
    exact ⟨Term.not_isSum chain, next.isLeaf⟩

theorem Expression.isExpression (expression : Expression)
    (spelled : ∀ token ∈ expression.tokens, Token.IsSpelled token.word) :
    expression.tree.IsExpression := by
  refine Chain.isExpression Term.isExpression (fun chain sign next => ?_) expression spelled
  rw [Tree.StandsBetween, sign.rank_eq]
  exact next.not_isSum

theorem Statement.isStatement (statement : Statement)
    (spelled : ∀ token ∈ statement.tokens, Token.IsSpelled token.word) :
    statement.tree.IsStatement := by
  rw [Statement.tokens, List.forall_mem_append, List.forall_mem_append] at spelled
  obtain ⟨⟨heading, value⟩, -⟩ := spelled
  have isExpression := statement.value.isExpression value
  have name {piece : Piece} (member : piece.token .name ∈ statement.heading.tokens) :
      TokenKind.name.Spells piece.lexeme.toList :=
    (Token.isSpelled_iff (by decide)).mp (heading _ member)
  simp only [tree]
  cases heading_eq : statement.heading with
  | declaration word piece equals =>
    exact ⟨name (by simp [heading_eq, Heading.tokens]), isExpression⟩
  | assignment piece equals => exact ⟨name (by simp [heading_eq, Heading.tokens]), isExpression⟩
  | print word => exact isExpression

/-- What a source text is read as can be written. -/
theorem Reads.isStatement {source : String} {statements : List Tree}
    (reads : Reads source statements) : ∀ statement ∈ statements, statement.IsStatement := by
  obtain ⟨scan, scans, accepted⟩ := reads
  obtain ⟨tokens, closing, lexes, readable, tokens_eq⟩ := exists_readable_of_scan scans
  have noEnd := (lexes.segmentation readable List.drop_zero).kind_ne_endOfInput
  obtain ⟨program, same, rfl⟩ := Tree.exists_derivation_of_ofTokens accepted
  rw [tokens_eq, Token.beforeEnd_concat noEnd rfl] at same
  refine List.forall_mem_map.mpr fun statement member => statement.isStatement fun token isIn => ?_
  exact lexes.isSpelled token (same ▸ List.mem_flatMap.mpr ⟨statement, member, isIn⟩)

/-! ## Tokens of written trees -/

namespace Operator

theorem isSpelled (operator : Operator) :
    Token.IsSpelled (operator.kind, operator.symbol) := by
  cases operator <;> exact (Token.isSpelled_iff (by decide)).mpr rfl

theorem spelling_eq (operator : Operator) :
    Token.spelling (operator.kind, operator.symbol) = operator.symbol.toList := by
  cases operator <;> rfl

/-- An operator lengthens no token, whatever separators stand before it. -/
theorem stopsBefore_symbol (operator : Operator) (kind : TokenKind) {gap : List Char}
    (separates : ∀ c ∈ gap, isSeparator c = true) (text : List Char) :
    kind.StopsBefore (gap ++ (operator.symbol.toList ++ text)) := by
  have notFused : ¬ kind.Fuses operator.kind := by
    cases operator <;> simp [TokenKind.Fuses, Operator.kind, TokenKind.isWord]
  rw [← operator.spelling_eq]
  exact (TokenKind.stopsBefore_iff separates operator.isSpelled).mpr
    fun fuses => absurd fuses notFused

/-- No operator is lengthened. -/
theorem kind_stopsBefore (operator : Operator) (text : List Char) :
    operator.kind.StopsBefore text := by
  refine TokenKind.stopsBefore_of_ne ?_ ?_ text <;> cases operator <;> decide

end Operator

namespace Layout

variable (layout : Layout) {text : List Char} {more : List (TokenKind × String)}

/-- The text of an expression has the words of the expression, if what follows lengthens no
token. -/
theorem readsAs_expression {tree : Tree} (isExpression : tree.IsExpression)
    (apart : ∀ kind : TokenKind, kind.StopsBefore text) (reads : Token.ReadsAs text more) :
    Token.ReadsAs ((layout.write tree).toList ++ text) (tree.words ++ more) := by
  induction tree generalizing text more with
  | assign | print => exact isExpression.elim
  | number value span =>
    have isDigits : TokenKind.number.Spells (String.ofList (Number.literal value)).toList := by
      rw [String.toList_ofList]
      exact Number.isDigits_literal value
    exact reads.cons ((Token.isSpelled_iff (by decide)).mpr isDigits) (apart _)
  | text value span =>
    have written : (layout.write (.text value span)).toList = Token.spelling (.text, value) := by
      simp [write, Token.spelling]
    rw [written]
    exact reads.cons (Token.isSpelled_text_iff.mpr isExpression) (apart _)
  | reference name span =>
    exact reads.cons ((Token.isSpelled_iff (by decide)).mpr isExpression) (apart _)
  | operation left operator right span ihLeft ihRight =>
    obtain ⟨-, leftIs, rightIs⟩ := isExpression
    have second := (ihRight rightIs apart reads).separators layout.around_separates
    have signed := second.cons operator.isSpelled (operator.kind_stopsBefore _)
    rw [operator.spelling_eq] at signed
    have whole := ihLeft leftIs
      (fun kind => operator.stopsBefore_symbol kind layout.around_separates _)
      (signed.separators layout.around_separates)
    simpa only [write, Tree.words, String.toList_append, List.append_assoc, List.cons_append]
      using whole

/-- The text of a statement has the words of the statement, whatever follows. -/
theorem readsAs_statement {tree : Tree} (isStatement : tree.IsStatement)
    (reads : Token.ReadsAs text more) :
    Token.ReadsAs ((layout.write tree).toList ++ text) (tree.words ++ more) := by
  have blank : ∀ c ∈ [' '], isSeparator c = true := List.forall_mem_singleton.mpr rfl
  -- An expression and the semicolon behind it.
  have rest {value : Tree} (isExpression : value.IsExpression) :
      Token.ReadsAs ((layout.write value).toList ++ (";".toList ++ (layout.after.toList ++ text)))
        (value.words ++ (.semicolon, ";") :: more) := by
    have ended := reads.separators layout.after_separates
    have semicolon : Token.IsSpelled (.semicolon, ";") := (Token.isSpelled_iff (by decide)).mpr rfl
    refine layout.readsAs_expression isExpression (fun kind => ?_) (ended.cons semicolon ?_)
    · exact TokenKind.stopsBefore_of_mem (by decide)
    · exact TokenKind.stopsBefore_of_ne (by decide) (by decide) _
  cases tree with
  | number | text | reference | operation => exact isStatement.elim
  | print value span =>
    have word : Token.IsSpelled (.printWord, "print") := (Token.isSpelled_iff (by decide)).mpr rfl
    have whole := ((rest isStatement).separators blank).cons word
      (TokenKind.stopsBefore_of_mem (by decide))
    simpa [write, Tree.words, Token.spelling] using whole
  | assign name value span =>
    obtain ⟨isName, isExpression⟩ := isStatement
    have equals : Token.IsSpelled (.equals, "=") := (Token.isSpelled_iff (by decide)).mpr rfl
    have signed := ((rest isExpression).separators blank).cons equals
      (TokenKind.stopsBefore_of_ne (by decide) (by decide) _)
    have whole := (signed.separators blank).cons ((Token.isSpelled_iff (by decide)).mpr isName)
      (TokenKind.stopsBefore_of_mem (by decide))
    simpa [write, Tree.words, Token.spelling] using whole

/-- The text of a program has the words of its statements. -/
theorem readsAs_program {statements : List Tree}
    (areStatements : ∀ statement ∈ statements, statement.IsStatement) :
    Token.ReadsAs (layout.program statements).toList (statements.flatMap Tree.words) := by
  induction statements with
  | nil => exact Token.readsAs_nil
  | cons statement statements ih =>
    obtain ⟨here, later⟩ := List.forall_mem_cons.mp areStatements
    have whole := layout.readsAs_statement here (ih later)
    simpa [program] using whole

end Layout

/-! ## Derivations of written trees -/

/-- A token with this kind and lexeme, without its span. -/
def Token.bare (word : TokenKind × String) : Token :=
  ⟨word.1, word.2, ⟨0, 0⟩⟩

/-- If the operands of an operator are made of a chain and an item, a longer chain makes the
operation. -/
theorem Chain.exists_operation {rank : Grammar.Rank} {α : Type} {tokens : α → List Token}
    {tree : α → Tree} {operator : Operator} (rank_eq : operator.rank = rank) {left right : Tree}
    (span : Span) {chain : Chain rank α} {next : α}
    (chainTokens : chain.tokensBy tokens = left.words.map Token.bare)
    (chainTree : chain.treeBy tree = left.bare)
    (nextTokens : tokens next = right.words.map Token.bare) (nextTree : tree next = right.bare) :
    ∃ longer : Chain rank α,
      longer.tokensBy tokens = (Tree.operation left operator right span).words.map Token.bare ∧
        longer.treeBy tree = (Tree.operation left operator right span).bare := by
  refine ⟨chain.push ⟨operator, rank_eq, ⟨operator.symbol, ⟨0, 0⟩⟩⟩ next, ?_, ?_⟩
  · rw [tokensBy_push, chainTokens, nextTokens, Tree.words, List.map_append, List.map_cons]
    rfl
  · rw [treeBy_push, chainTree, nextTree, Tree.joined, Tree.span_bare, Tree.span_bare]
    rfl

namespace Tree

/-- A leaf that can be written is an operand. -/
theorem exists_operand {tree : Tree} (isExpression : tree.IsExpression) (isLeaf : tree.IsLeaf) :
    ∃ operand : Operand, [operand.token] = tree.words.map Token.bare ∧
      operand.tree = tree.bare := by
  cases tree with
  | assign | print | operation => exact isLeaf.elim
  | number value span =>
    exact ⟨.number ⟨⟨_, ⟨0, 0⟩⟩, value, Number.ofNumeral?_literal isExpression⟩, rfl, rfl⟩
  | text value span => exact ⟨.text ⟨value, ⟨0, 0⟩⟩, rfl, rfl⟩
  | reference name span => exact ⟨.name ⟨name, ⟨0, 0⟩⟩, rfl, rfl⟩

/-- What is not a sum is a term. -/
theorem exists_term {tree : Tree} (isExpression : tree.IsExpression) (notSum : ¬ tree.IsSum) :
    ∃ term : Term, term.tokens = tree.words.map Token.bare ∧ term.tree = tree.bare := by
  induction tree with
  | assign | print => exact isExpression.elim
  | number | text | reference =>
    obtain ⟨operand, tokens_eq, tree_eq⟩ := exists_operand isExpression trivial
    exact ⟨.single operand, (Chain.tokensBy_single _ operand).trans tokens_eq, tree_eq⟩
  | operation left operator right span ihLeft _ =>
    obtain ⟨stands, leftIs, rightIs⟩ := isExpression
    cases rank_eq : operator.rank with
    | sum => exact absurd rank_eq notSum
    | product =>
      rw [StandsBetween, rank_eq] at stands
      obtain ⟨term, tokens_eq, tree_eq⟩ := ihLeft leftIs stands.1
      obtain ⟨operand, operandTokens, operandTree⟩ := exists_operand rightIs stands.2
      exact Chain.exists_operation rank_eq span tokens_eq tree_eq operandTokens operandTree

theorem exists_expression {tree : Tree} (isExpression : tree.IsExpression) :
    ∃ expression : Expression, expression.tokens = tree.words.map Token.bare ∧
      expression.tree = tree.bare := by
  have ofTerm {tree : Tree} (isExpression : tree.IsExpression) (notSum : ¬ tree.IsSum) :
      ∃ expression : Expression, expression.tokens = tree.words.map Token.bare ∧
        expression.tree = tree.bare := by
    obtain ⟨term, tokens_eq, tree_eq⟩ := exists_term isExpression notSum
    exact ⟨.single term, (Chain.tokensBy_single _ term).trans tokens_eq, tree_eq⟩
  induction tree with
  | assign | print => exact isExpression.elim
  | number | text | reference => exact ofTerm isExpression id
  | operation left operator right span ihLeft _ =>
    cases rank_eq : operator.rank with
    | product => exact ofTerm isExpression fun isSum => nomatch rank_eq.symm.trans isSum
    | sum =>
      obtain ⟨stands, leftIs, rightIs⟩ := isExpression
      rw [StandsBetween, rank_eq] at stands
      obtain ⟨expression, tokens_eq, tree_eq⟩ := ihLeft leftIs
      obtain ⟨term, termTokens, termTree⟩ := exists_term rightIs stands
      exact Chain.exists_operation rank_eq span tokens_eq tree_eq termTokens termTree

theorem exists_statement {tree : Tree} (isStatement : tree.IsStatement) :
    ∃ statement : Statement, statement.tokens = tree.words.map Token.bare ∧
      statement.tree = tree.bare := by
  have piece (lexeme : String) : Piece := ⟨lexeme, ⟨0, 0⟩⟩
  cases tree with
  | number | text | reference | operation => exact isStatement.elim
  | assign name value span =>
    obtain ⟨expression, tokens_eq, tree_eq⟩ := exists_expression isStatement.2
    refine ⟨⟨.assignment ⟨name, ⟨0, 0⟩⟩ ⟨"=", ⟨0, 0⟩⟩, expression, ⟨";", ⟨0, 0⟩⟩⟩, ?_, ?_⟩
    · simp only [Statement.tokens, tokens_eq, words, List.map_cons, List.map_append]
      rfl
    · exact congrArg (assign name · ⟨0, 0⟩) tree_eq
  | print value span =>
    obtain ⟨expression, tokens_eq, tree_eq⟩ := exists_expression isStatement
    refine ⟨⟨.print ⟨"print", ⟨0, 0⟩⟩, expression, ⟨";", ⟨0, 0⟩⟩⟩, ?_, ?_⟩
    · simp only [Statement.tokens, tokens_eq, words, List.map_cons, List.map_append]
      rfl
    · exact congrArg (print · ⟨0, 0⟩) tree_eq

/-- Statements that can be written are a program. -/
theorem exists_program {statements : List Tree}
    (areStatements : ∀ statement ∈ statements, statement.IsStatement) :
    ∃ program : List Statement,
      program.flatMap Statement.tokens = (statements.flatMap words).map Token.bare ∧
        program.map Statement.tree = statements.map bare := by
  induction statements with
  | nil => exact ⟨[], rfl, rfl⟩
  | cons tree statements ih =>
    obtain ⟨here, later⟩ := List.forall_mem_cons.mp areStatements
    obtain ⟨statement, tokens_eq, tree_eq⟩ := exists_statement here
    obtain ⟨program, others_eq, trees_eq⟩ := ih later
    refine ⟨statement :: program, ?_, ?_⟩
    · rw [List.flatMap_cons, List.flatMap_cons, List.map_append, tokens_eq, others_eq]
    · rw [List.map_cons, List.map_cons, tree_eq, trees_eq]

/-- A text with the words of statements is read as these statements, if they can be written. -/
theorem exists_reads_of_readsAs {statements : List Tree}
    (areStatements : ∀ statement ∈ statements, statement.IsStatement) {source : String}
    (reads : Token.ReadsAs source.toList (statements.flatMap words)) :
    ∃ parsed, Reads source parsed ∧ parsed.map bare = statements.map bare := by
  obtain ⟨program, tokens_eq, trees_eq⟩ := exists_program areStatements
  obtain ⟨tokens, lexes, words_eq⟩ := reads 0
  have noEnd := (lexes.segmentation (fun _ _ => nofun) List.drop_zero).kind_ne_endOfInput
  -- Without their spans, the tokens of the text are those of the derivation.
  have bare_eq : (statements.flatMap words).map Token.bare =
      tokens.map (Token.relocate .origin) := by
    rw [← words_eq, List.map_map]
    rfl
  have derived : ofTokens (tokens.map (Token.relocate .origin)) = .ok (statements.map bare) := by
    rw [← trees_eq]
    refine ofTokens_of_derivation ?_
    rw [tokens_eq, bare_eq, Token.beforeEnd_eq_self (Token.kind_ne_of_mem_relocate _ noEnd)]
  rw [ofTokens_relocate] at derived
  cases accepted : ofTokens tokens with
  | error fault =>
    rw [accepted] at derived
    cases derived
  | ok parsed =>
    rw [accepted] at derived
    exact ⟨parsed, ⟨_, lexes.scan_eq, (ofTokens_concat noEnd rfl).trans accepted⟩,
      Except.ok.inj derived⟩

end Tree

/-- **What source texts are read as, and printing as its inverse.**

Up to spans, a list of trees is what some source text is read as exactly if every tree in it is a
statement that can be written.  The text that is printed for such a list is read as the list,
whatever separators are chosen. -/
theorem Tree.reads_iff_isStatement (statements : List Tree) :
    ((∃ source parsed, Reads source parsed ∧ parsed.map bare = statements.map bare) ↔
      ∀ statement ∈ statements, statement.IsStatement) ∧
    ((∀ statement ∈ statements, statement.IsStatement) → ∀ layout : Layout,
      ∃ parsed, Reads (layout.program statements) parsed ∧
        parsed.map bare = statements.map bare) := by
  have printed (areStatements : ∀ statement ∈ statements, statement.IsStatement)
      (layout : Layout) : ∃ parsed, Reads (layout.program statements) parsed ∧
        parsed.map bare = statements.map bare :=
    exists_reads_of_readsAs areStatements (layout.readsAs_program areStatements)
  refine ⟨⟨?_, fun areStatements => ?_⟩, printed⟩
  · rintro ⟨source, parsed, reads, same⟩ statement member
    have bare_mem : statement.bare ∈ parsed.map bare := same ▸ List.mem_map_of_mem member
    obtain ⟨other, otherMember, bare_eq⟩ := List.mem_map.mp bare_mem
    rw [← isStatement_bare, ← bare_eq, isStatement_bare]
    exact reads.isStatement other otherMember
  · obtain ⟨parsed, reads, same⟩ := printed areStatements .plain
    exact ⟨_, parsed, reads, same⟩

/-- A difference on the left of another one, and a product on the right, need no parentheses and are
read back.  A difference on the right of another one is not what any text is read as. -/
theorem Tree.reads_iff_isStatement_difference :
    let leaf (name : String) : Tree := .reference name ⟨0, 0⟩
    let join (left : Tree) (operator : Operator) (right : Tree) : Tree :=
      .operation left operator right ⟨0, 0⟩
    let zero : Tree := .number (Binary64.ofRank false 0) ⟨0, 0⟩
    let product := join (.text "a b" ⟨0, 0⟩) .multiply (leaf "z")
    let statement : Tree := .assign "x" (join (join zero .subtract (leaf "y")) .add product) ⟨0, 0⟩
    let other : Tree := .print (join zero .subtract (join (leaf "y") .subtract (leaf "z"))) ⟨0, 0⟩
    (∃ parsed, Reads "x = 0 - y + \"a b\" * z;\n" parsed ∧ parsed.map bare = [statement]) ∧
      ¬ ∃ source parsed, Reads source parsed ∧ parsed.map bare = [other] := by
  intro leaf join zero product statement other
  have isName {c : Char} (startsWord : isWordStart c = true) :
      TokenKind.name.Spells [c] :=
    ⟨⟨c, [], rfl, startsWord, List.forall_mem_nil _⟩, by simp [TokenKind.keywords]⟩
  have isZero : zero.IsExpression := by
    show Number.IsLiteral (Binary64.ofRank false 0)
    decide +kernel
  have noQuote : '"' ∉ "a b".toList := by decide
  have isProduct : product.IsExpression := ⟨⟨id, trivial⟩, noQuote, isName (by decide)⟩
  have isStatement : statement.IsStatement :=
    ⟨isName (by decide), by rintro ⟨⟩, ⟨id, isZero, isName (by decide)⟩, isProduct⟩
  let layout : Layout :=
    ⟨" ", "\n", List.forall_mem_singleton.mpr rfl, List.forall_mem_singleton.mpr rfl⟩
  have text_eq : layout.program [statement] = "x = 0 - y + \"a b\" * z;\n" := by decide +kernel
  constructor
  · rw [← text_eq]
    exact (reads_iff_isStatement [statement]).2 (List.forall_mem_singleton.mpr isStatement) layout
  · intro reads
    have isOther := (reads_iff_isStatement [other]).1.mp reads other List.mem_cons_self
    exact isOther.1 rfl

end PrintLang
