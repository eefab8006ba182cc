import PrintLang.Proofs.Grammar.Cursor

/-!
# Descent follows the reader

Reading by descent comes to what the reader comes to, which is handed one token after the other.
At every index the cursor stands at, the reader would be at some place in the grammar, and what it
makes of the tokens from there on is the result of the whole list.  The rules are gone through one
by one: each of them moves the cursor and the reader together, or ends with the fault that the
reader refuses the next token with.

It follows that reading by descent stays in bounds.  The cursor is never behind the first end of
input, and a token has been passed whenever the one before the cursor is asked for.  Every round of
a loop moves the cursor on, so there are no more rounds than tokens.

## Main Definitions

* `Ended.Stands` — the place of the reader at an index
* `Tree.FitsBetween` — tokens enough for a statement

## Main Statements

* `Ended.meets_statement`, `Ended.meets_program` — the rules move cursor and reader together
* `Descent.parse_stays_before_end` — what reading by descent comes to, and how far it looks
-/

namespace PrintLang

/-- The number of tokens that a statement has at least: a name, an equals sign, an operand and a
semicolon for an assignment. -/
def Tree.fewest : Tree → Option Nat
  | assign .. => some 4
  | print .. => some 3
  | _ => none

theorem Tree.three_le_fewest {tree : Tree} {least : Nat} (fewest_eq : tree.fewest = some least) :
    3 ≤ least := by
  cases tree <;> cases fewest_eq <;> decide

/-- There are enough tokens between two indices for a tree, which is a statement. -/
def Tree.FitsBetween (tree : Tree) (start stop : Nat) : Prop :=
  ∃ least, tree.fewest = some least ∧ start + least ≤ stop

namespace Ended

variable (ended : Ended) (whole : Except Fault (List Tree))

/-- What the reader makes of the tokens from an index on. -/
def onward (place : Place) (statements : Array Tree) (index : Nat) : Except Fault (List Tree) :=
  (Reader.mk place statements (ended.stop index)).conclude (ended.body.drop index)

/-- If the reader is at a place before an index, it comes to what it makes of all the tokens. -/
structure Stands (place : Place) (statements : Array Tree) (index : Nat) : Prop where
  bound : index ≤ ended.size
  onward_eq : ended.onward place statements index = whole

section

variable {ended} {place : Place} {statements : Array Tree} {index : Nat}

theorem drop_body (inside : index < ended.size) :
    ended.body.drop index = ended.upcoming index :: ended.body.drop (index + 1) := by
  obtain ⟨inside, upcoming_eq⟩ := List.getElem?_eq_some_iff.mp (getElem?_body inside)
  rw [← upcoming_eq]
  exact List.drop_eq_getElem_cons inside

/-- Before the end, the reader takes a step. -/
theorem onward_of_lt (inside : index < ended.size) :
    ended.onward place statements index =
      match place.step (ended.upcoming index) with
      | .ok (next, none) => ended.onward next statements (index + 1)
      | .ok (next, some statement) => ended.onward next (statements.push statement) (index + 1)
      | .error fault => .error fault := by
  simp only [onward, Reader.conclude, drop_body inside, Reader.feed, Reader.step, stop_succ inside]
  rcases place.step (ended.upcoming index) with fault | ⟨next, statement⟩
  · rfl
  · cases statement <;> rfl

theorem onward_size :
    ended.onward place statements ended.size =
      (Reader.mk place statements (ended.stop ended.size)).finish := by
  rw [onward, size, List.drop_length]
  rfl

/-- The reader makes of all the tokens what it makes of them from the first one on. -/
theorem onward_zero {tokens : List Token} (body_eq : ended.body = Token.beforeEnd tokens) :
    ended.onward .start #[] 0 = Tree.ofTokens tokens := by
  rw [onward, List.drop_zero, body_eq]
  rfl

end

namespace Stands

variable {ended whole} {place next : Place} {statements : Array Tree} {index : Nat}

theorem step (stands : ended.Stands whole place statements index) (inside : index < ended.size)
    (step_eq : place.step (ended.upcoming index) = .ok (next, none)) :
    ended.Stands whole next statements (index + 1) := by
  refine ⟨inside, ?_⟩
  rw [← stands.onward_eq, onward_of_lt inside, step_eq]

theorem complete {statement : Tree} (stands : ended.Stands whole place statements index)
    (inside : index < ended.size)
    (step_eq : place.step (ended.upcoming index) = .ok (next, some statement)) :
    ended.Stands whole next (statements.push statement) (index + 1) := by
  refine ⟨inside, ?_⟩
  rw [← stands.onward_eq, onward_of_lt inside, step_eq]

theorem fault {fault : Fault} (stands : ended.Stands whole place statements index)
    (inside : index < ended.size)
    (step_eq : place.step (ended.upcoming index) = .error fault) : whole = .error fault := by
  rw [← stands.onward_eq, onward_of_lt inside, step_eq]

/-- A place refuses the next token, or the end. -/
theorem refused (stands : ended.Stands whole place statements index)
    (notDone : place ≠ .start ∨ index < ended.size)
    (step_eq : place.step (ended.upcoming index) = .error (place.refuse (ended.upcoming index))) :
    whole = .error (place.refuse (ended.upcoming index)) := by
  rcases Nat.lt_or_eq_of_le stands.bound with inside | rfl
  · exact stands.fault inside step_eq
  · have notStart : place ≠ .start := by simpa using notDone
    rw [← stands.onward_eq, onward_size, upcoming_size]
    cases place with
    | start => exact absurd rfl notStart
    | afterName | afterVar | afterVarName | operand | operator => rfl

end Stands

/-! ## Rules -/

/-- The reader is after an expression that no factor goes on with. -/
def StandsAfter (opening : Opening) (statements : Array Tree) (tree : Tree) (index : Nat) : Prop :=
  ∃ sum term, ended.Stands whole (.operator opening sum term) statements index ∧
    (ended.upcoming index).kind ∉ Descent.products.map Prod.fst ∧ join sum term = tree

section

variable {ended whole} {opening : Opening} {statements : Array Tree} {index limit : Nat}

theorem meets_operand {waiting : Waiting}
    (stands : ended.Stands whole (.operand opening waiting) statements index)
    (positive : 0 < index) :
    ended.Meets whole Descent.operand index fun leaf later =>
      index < later ∧
        ended.Stands whole (.afterOperand opening waiting leaf) statements later := by
  have found (inside : index < ended.size) {leaf : Tree}
      (leaf_eq : Place.leaf? (ended.upcoming index) = .ok (some leaf)) :
      index < index + 1 ∧
        ended.Stands whole (.afterOperand opening waiting leaf) statements (index + 1) :=
    ⟨Nat.lt_succ_self index, stands.step inside (by simp only [Place.step, leaf_eq])⟩
  refine (meets_skip stands.bound (by decide)).bind ?_
  rintro skipped later (⟨rfl, inside, isNumber, rfl⟩ | ⟨rfl, notNumber, rfl⟩)
  · refine (meets_previous inside).bind ?_
    rintro token later ⟨rfl, rfl⟩
    cases denotes : Number.ofNumeral? (ended.upcoming index).lexeme with
    | some value => exact .pure (found inside (by simp only [Place.leaf?, isNumber, denotes]))
    | none =>
      refine .throw (stands.fault inside ?_)
      simp only [Place.step, Place.leaf?, isNumber, denotes]
  refine (meets_skip stands.bound (by decide)).bind ?_
  rintro skipped later (⟨rfl, inside, isText, rfl⟩ | ⟨rfl, notText, rfl⟩)
  · refine (meets_previous inside).bind ?_
    rintro token later ⟨rfl, rfl⟩
    exact .pure (found inside (by simp only [Place.leaf?, isText]))
  refine (meets_skip stands.bound (by decide)).bind ?_
  rintro skipped later (⟨rfl, inside, isName, rfl⟩ | ⟨rfl, notName, rfl⟩)
  · refine (meets_previous inside).bind ?_
    rintro token later ⟨rfl, rfl⟩
    exact .pure (found inside (by simp only [Place.leaf?, isName]))
  refine meets_refuse stands.bound (Or.inl positive) (stands.refused (Or.inl (by rintro ⟨⟩)) ?_)
  have notLeaf : Place.leaf? (ended.upcoming later) = .ok none := by
    rw [Place.leaf?]
    split <;> first | contradiction | rfl
  simp only [Place.step, notLeaf]

/-- A loop reads operators with items after them.  What holds of the tree that has been joined is
kept by each of them. -/
theorem meets_joinAll {signs : List (TokenKind × Operator)} {item : Descent Tree}
    (joined : Tree → Nat → Prop) (bounded : ∀ {tree index}, joined tree index → index ≤ ended.size)
    (notEnd : .endOfInput ∉ signs.map Prod.fst)
    (goesOn : ∀ {left index operator}, joined left index → index < ended.size →
      signs.lookup (ended.upcoming index).kind = some operator →
      ended.Meets whole item (index + 1) fun right later =>
        index + 1 < later ∧ joined (left.joined operator right) later)
    {rounds : Nat} {left : Tree} (start : joined left index)
    (enough : ended.size - index < rounds) :
    ended.Meets whole (Descent.joinAll signs item rounds left) index fun tree later =>
      index ≤ later ∧ joined tree later ∧
        (ended.upcoming later).kind ∉ signs.map Prod.fst := by
  induction rounds generalizing left index with
  | zero => exact absurd enough (Nat.not_lt_zero _)
  | succ rounds ih =>
    refine (meets_skipAny (bounded start) notEnd).bind ?_
    rintro skipped later (⟨rfl, inside, isSign, rfl⟩ | ⟨rfl, notSign, rfl⟩)
    · refine (meets_previous inside).bind ?_
      rintro token later ⟨rfl, rfl⟩
      obtain ⟨operator, lookup_eq⟩ : ∃ operator,
          signs.lookup (ended.upcoming index).kind = some operator := by
        obtain ⟨pair, member, kind_eq⟩ := List.mem_map.mp isSign
        refine Option.isSome_iff_exists.mp (List.lookup_isSome_iff.mpr ⟨pair, member, ?_⟩)
        rw [kind_eq, beq_self_eq_true]
      have known : ended.Meets whole
          (Descent.operatorOf signs (ended.upcoming index).kind) (index + 1) fun found later =>
            found = operator ∧ later = index + 1 := by
        rw [Descent.operatorOf, lookup_eq]
        exact .pure ⟨rfl, rfl⟩
      refine known.bind ?_
      rintro found later ⟨rfl, rfl⟩
      refine (goesOn start inside lookup_eq).bind ?_
      rintro right later ⟨further, kept⟩
      refine (ih kept (by omega)).mono ?_
      rintro tree last ⟨behind, kept, notSign⟩
      exact ⟨by omega, kept, notSign⟩
    · exact .pure ⟨Nat.le_refl _, start, notSign⟩

theorem step_product {sum : Option (Tree × Operator)} {term : Tree} {operator : Operator}
    {token : Token} (lookup_eq : Descent.products.lookup token.kind = some operator) :
    Place.step (.operator opening sum term) token =
      .ok (.operand opening ⟨sum, some (term, operator)⟩, none) := by
  obtain ⟨kind, lexeme, span⟩ := token
  cases kind <;> cases lookup_eq <;> rfl

theorem step_sum {sum : Option (Tree × Operator)} {term : Tree} {operator : Operator}
    {token : Token} (lookup_eq : Descent.sums.lookup token.kind = some operator) :
    Place.step (.operator opening sum term) token =
      .ok (.operand opening ⟨some (join sum term, operator), none⟩, none) := by
  obtain ⟨kind, lexeme, span⟩ := token
  cases kind <;> cases lookup_eq <;> rfl

theorem meets_term {sum : Option (Tree × Operator)}
    (stands : ended.Stands whole (.operand opening ⟨sum, none⟩) statements index)
    (positive : 0 < index) (enough : ended.size < limit) :
    ended.Meets whole (Descent.term limit) index fun tree later =>
      index < later ∧ ended.Stands whole (.operator opening sum tree) statements later ∧
        (ended.upcoming later).kind ∉ Descent.products.map Prod.fst := by
  refine (meets_operand stands positive).bind ?_
  rintro first later ⟨further, stands⟩
  refine (meets_joinAll
    (fun tree index => ended.Stands whole (.operator opening sum tree) statements index)
    (fun stands => stands.bound) (by decide) ?_ stands (by omega)).mono ?_
  · intro left index operator stands inside lookup_eq
    have next := stands.step inside (step_product lookup_eq)
    exact meets_operand next (Nat.succ_pos _)
  · rintro tree last ⟨behind, stands, notSign⟩
    exact ⟨by omega, stands, notSign⟩

theorem meets_expression (stands : ended.Stands whole (.expression opening) statements index)
    (positive : 0 < index) (enough : ended.size < limit) :
    ended.Meets whole (Descent.expression limit) index fun tree later =>
      index < later ∧ ended.StandsAfter whole opening statements tree later ∧
        (ended.upcoming later).kind ∉ Descent.sums.map Prod.fst := by
  refine (meets_term stands positive enough).bind ?_
  rintro first later ⟨further, stands, notProduct⟩
  refine (meets_joinAll (ended.StandsAfter whole opening statements)
    (fun ⟨_, _, stands, _⟩ => stands.bound) (by decide) ?_
    ⟨none, first, stands, notProduct, rfl⟩ (by omega)).mono ?_
  · rintro left index operator ⟨sum, term, stands, notProduct, rfl⟩ inside lookup_eq
    have next := stands.step inside (step_sum lookup_eq)
    refine (meets_term next (Nat.succ_pos _) enough).mono ?_
    rintro right later ⟨further, stands, notProduct⟩
    exact ⟨further, _, _, stands, notProduct, rfl⟩
  · rintro tree last ⟨behind, stands, notSum⟩
    exact ⟨by omega, stands, notSum⟩

theorem meets_body (stands : ended.Stands whole (.expression opening) statements index)
    (positive : 0 < index) (enough : ended.size < limit) :
    ended.Meets whole (Descent.body limit opening) index fun tree later =>
      index + 2 ≤ later ∧ (∃ value stop, tree = opening.statement value stop) ∧
        ended.Stands whole .start (statements.push tree) later := by
  refine (meets_expression stands positive enough).bind ?_
  rintro value later ⟨further, ⟨sum, term, stands, notProduct, rfl⟩, notSum⟩
  refine (meets_consume stands.bound (Or.inl (by omega)) (by decide) fun notSemicolon => ?_).bind ?_
  · refine stands.refused (Or.inl (by rintro ⟨⟩)) ?_
    simp only [Descent.products, Descent.sums, List.map, List.mem_cons, not_or]
      at notProduct notSum
    rw [Place.step]
    split <;> first | rfl | simp_all
  · rintro semicolon last ⟨rfl, isSemicolon, inside, rfl⟩
    refine .pure ⟨by omega, ⟨_, _, rfl⟩, stands.complete inside ?_⟩
    simp only [Place.step, isSemicolon]

/-- A place that only a token of one kind goes on from leads past it. -/
theorem meets_consume_step {place : Place} {kind : TokenKind} (complaint : Complaint)
    (next : Token → Place) (stands : ended.Stands whole place statements index)
    (positive : 0 < index) (notEnd : kind ≠ .endOfInput)
    (complaint_eq : complaint = { text := complaint.text, expected := kind.title })
    (refuse_eq : ∀ token, place.refuse token = complaint.about token) (notStart : place ≠ .start)
    (step_eq : ∀ token, place.step token =
      if token.kind = kind then .ok (next token, none) else .error (place.refuse token)) :
    ended.Meets whole (Descent.consume kind complaint.text) index fun token later =>
      later = index + 1 ∧ ended.Stands whole (next token) statements later := by
  refine (meets_consume stands.bound (Or.inl positive) notEnd fun notKind => ?_).mono ?_
  · rw [← complaint_eq, ← refuse_eq]
    exact stands.refused (Or.inl notStart) (by rw [step_eq, if_neg notKind])
  · rintro token later ⟨rfl, isKind, inside, rfl⟩
    exact ⟨rfl, stands.step inside (by rw [step_eq, if_pos isKind])⟩

theorem meets_declaration (stands : ended.Stands whole .start statements index)
    (inside : index < ended.size) (isVar : (ended.upcoming index).kind = .varWord)
    (enough : ended.size < limit) :
    ended.Meets whole (Descent.declaration limit) (index + 1) fun tree later =>
      tree.FitsBetween index later ∧
        ended.Stands whole .start (statements.push tree) later := by
  have afterVar : ended.Stands whole (.afterVar (ended.upcoming index).span.start) statements
      (index + 1) :=
    stands.step inside (by simp only [Place.step, isVar])
  refine (meets_previous inside).bind ?_
  rintro word later ⟨rfl, rfl⟩
  refine (meets_consume_step .variableName
    (fun name => .afterVarName (ended.upcoming index).span.start name.lexeme) afterVar
    (Nat.succ_pos _) (by decide) rfl (fun _ => rfl) (by rintro ⟨⟩) fun token => ?_).bind ?_
  · simp only [Place.step]
    cases token.kind <;> rfl
  rintro name later ⟨rfl, afterName⟩
  refine (meets_consume_step .equalsSign
    (fun _ => .expression (.declaration (ended.upcoming index).span.start name.lexeme)) afterName
    (Nat.succ_pos _) (by decide) rfl (fun _ => rfl) (by rintro ⟨⟩) fun token => ?_).bind ?_
  · simp only [Place.step]
    cases token.kind <;> rfl
  rintro equals later ⟨rfl, afterEquals⟩
  refine (meets_body afterEquals (Nat.succ_pos _) enough).mono ?_
  rintro tree last ⟨behind, ⟨value, stop, rfl⟩, stands⟩
  exact ⟨⟨4, rfl, by omega⟩, stands⟩

theorem meets_assignment (stands : ended.Stands whole .start statements index)
    (inside : index < ended.size) (isName : (ended.upcoming index).kind = .name)
    (isEquals : (ended.upcoming (index + 1)).kind = .equals) (enough : ended.size < limit) :
    ended.Meets whole (Descent.assignment limit) index fun tree later =>
      tree.FitsBetween index later ∧
        ended.Stands whole .start (statements.push tree) later := by
  have afterName : ended.Stands whole (.afterName (ended.upcoming index)) statements (index + 1) :=
    stands.step inside (by simp only [Place.step, isName])
  refine (meets_consume stands.bound (Or.inr inside) (by decide) (absurd isName)).bind ?_
  rintro name later ⟨rfl, -, -, rfl⟩
  refine (meets_consume afterName.bound (Or.inl (Nat.succ_pos _)) (by decide)
    (absurd isEquals)).bind ?_
  rintro equals later ⟨rfl, -, inside, rfl⟩
  have step_eq : Place.step (.afterName (ended.upcoming index)) (ended.upcoming (index + 1)) =
      .ok (.expression (.assignment (ended.upcoming index).span.start
        (ended.upcoming index).lexeme), none) := by
    simp only [Place.step, isEquals]
  have afterEquals := afterName.step inside step_eq
  refine (meets_body afterEquals (Nat.succ_pos _) enough).mono ?_
  rintro tree last ⟨behind, ⟨value, stop, rfl⟩, stands⟩
  exact ⟨⟨4, rfl, by omega⟩, stands⟩

theorem meets_printing (stands : ended.Stands whole .start statements index)
    (inside : index < ended.size) (isPrint : (ended.upcoming index).kind = .printWord)
    (enough : ended.size < limit) :
    ended.Meets whole (Descent.printing limit) (index + 1) fun tree later =>
      tree.FitsBetween index later ∧
        ended.Stands whole .start (statements.push tree) later := by
  have afterPrint : ended.Stands whole (.expression (.print (ended.upcoming index).span.start))
      statements (index + 1) :=
    stands.step inside (by simp only [Place.step, isPrint])
  refine (meets_previous inside).bind ?_
  rintro word later ⟨rfl, rfl⟩
  refine (meets_body afterPrint (Nat.succ_pos _) enough).mono ?_
  rintro tree last ⟨behind, ⟨value, stop, rfl⟩, stands⟩
  exact ⟨⟨3, rfl, by omega⟩, stands⟩

theorem meets_isAtAssignment (inside : index < ended.size) :
    ended.Meets whole Descent.isAtAssignment index fun same later =>
      same = decide ((ended.upcoming index).kind = .name ∧
        (ended.upcoming (index + 1)).kind = .equals) ∧ later = index := by
  refine (meets_check (Nat.le_of_lt inside)).bind ?_
  rintro same later ⟨rfl, rfl⟩
  by_cases isName : (ended.upcoming later).kind = .name
  · rw [decide_eq_true isName]
    refine (meets_checkNext inside).mono ?_
    rintro same later ⟨rfl, rfl⟩
    simp only [isName, true_and]
  · rw [decide_eq_false isName]
    refine .pure ⟨?_, rfl⟩
    simp only [isName, false_and, decide_false]

/-- A statement has at least as many tokens as its form needs. -/
theorem meets_statement (stands : ended.Stands whole .start statements index)
    (inside : index < ended.size) (enough : ended.size < limit) :
    ended.Meets whole (Descent.statement limit) index fun tree later =>
      tree.FitsBetween index later ∧
        ended.Stands whole .start (statements.push tree) later := by
  refine (meets_skip stands.bound (by decide)).bind ?_
  rintro skipped later (⟨rfl, -, isVar, rfl⟩ | ⟨rfl, notVar, rfl⟩)
  · exact meets_declaration stands inside isVar enough
  refine (meets_isAtAssignment inside).bind ?_
  rintro atAssignment later ⟨rfl, rfl⟩
  by_cases isAssignment : (ended.upcoming later).kind = .name ∧
      (ended.upcoming (later + 1)).kind = .equals
  · rw [decide_eq_true isAssignment]
    exact meets_assignment stands inside isAssignment.1 isAssignment.2 enough
  rw [decide_eq_false isAssignment]
  refine (meets_skip stands.bound (by decide)).bind ?_
  rintro skipped later (⟨rfl, -, isPrint, rfl⟩ | ⟨rfl, notPrint, rfl⟩)
  · exact meets_printing stands inside isPrint enough
  refine meets_refuse stands.bound (Or.inr inside) ?_
  -- The reader refuses a name one token later.
  by_cases isName : (ended.upcoming later).kind = .name
  · have afterName : ended.Stands whole (.afterName (ended.upcoming later)) statements
        (later + 1) :=
      stands.step inside (by simp only [Place.step, isName])
    refine afterName.refused (Or.inl (by rintro ⟨⟩)) ?_
    have notEquals := not_and.mp isAssignment isName
    rw [Place.step]
    split <;> first | contradiction | rfl
  · refine stands.refused (Or.inr inside) ?_
    rw [Place.step]
    split <;> first | contradiction | rfl

/-- A program is read up to the end. -/
theorem meets_program (enough : ended.size < limit) {rounds : Nat}
    (stands : ended.Stands whole .start statements index)
    (few : 3 * statements.size ≤ index) (left : ended.size - index < rounds) :
    ended.Meets whole (Descent.program limit rounds statements) index fun trees _ =>
      whole = .ok trees ∧ 3 * trees.length ≤ ended.size := by
  induction rounds generalizing statements index with
  | zero => exact absurd left (Nat.not_lt_zero _)
  | succ rounds ih =>
    refine (meets_isAtEnd stands.bound).bind ?_
    rintro atEnd later ⟨rfl, rfl⟩
    rcases Nat.lt_or_eq_of_le stands.bound with inside | rfl
    · rw [decide_eq_false (Nat.ne_of_lt inside)]
      refine (meets_statement stands inside enough).bind ?_
      rintro tree last ⟨⟨least, fewest_eq, behind⟩, stands⟩
      have three := tree.three_le_fewest fewest_eq
      exact ih stands (by rw [Array.size_push]; omega) (by omega)
    · rw [decide_eq_true rfl]
      refine .pure ⟨?_, few⟩
      rw [← stands.onward_eq, onward_size]
      rfl

end

end Ended

/-! ## Lists of tokens -/

/-- What stands behind an end of input is not read. -/
theorem Token.beforeEnd_append_end (tokens : List Token) {last : Token}
    (isEnd : last.kind = .endOfInput) (after : List Token) :
    Token.beforeEnd (tokens ++ last :: after) = Token.beforeEnd tokens := by
  induction tokens with
  | nil => simp [beforeEnd, isEnd]
  | cons token tokens ih =>
    simp only [beforeEnd, List.cons_append, List.takeWhile_cons] at ih ⊢
    rw [ih]

namespace Descent

theorem beforeEnd_supplied (tokens : List Token) :
    Token.beforeEnd (supplied tokens) = Token.beforeEnd tokens := by
  rw [supplied]
  split
  · rfl
  · exact Token.beforeEnd_append_end tokens rfl []

theorem exists_end_of_supplied (tokens : List Token) :
    ∃ token ∈ supplied tokens, token.kind = .endOfInput := by
  rw [supplied]
  split
  case isTrue lastIsEnd =>
    obtain ⟨last, last_eq, isEnd⟩ := Option.map_eq_some_iff.mp lastIsEnd
    exact ⟨last, List.mem_of_getLast? last_eq, isEnd⟩
  case isFalse notEnd =>
    exact ⟨_, List.mem_append_right _ (List.mem_singleton.mpr rfl), rfl⟩

/-- Every list of tokens that is read by descent has an end of input. -/
theorem exists_ended (tokens : List Token) :
    ∃ ended : Ended, ended.tokens = supplied tokens ∧ ended.body = Token.beforeEnd tokens ∧
      ended.size = (Token.beforeEnd tokens).length ∧ ended.size ≤ tokens.length := by
  have parts : Token.beforeEnd (supplied tokens) ++
      (supplied tokens).dropWhile (·.kind ≠ .endOfInput) = supplied tokens :=
    List.takeWhile_append_dropWhile
  have headIsEnd := List.head?_dropWhile_not
    (fun token : Token => decide (token.kind ≠ .endOfInput)) (supplied tokens)
  rw [beforeEnd_supplied] at parts
  cases rest_eq : (supplied tokens).dropWhile (·.kind ≠ .endOfInput) with
  | nil =>
    obtain ⟨token, member, isEnd⟩ := exists_end_of_supplied tokens
    have notEnd := List.dropWhile_eq_nil_iff.mp rest_eq token member
    exact absurd isEnd (by simpa using notEnd)
  | cons last after =>
    rw [rest_eq] at parts headIsEnd
    refine ⟨⟨Token.beforeEnd tokens, last, after, Token.kind_ne_of_mem_beforeEnd tokens, ?_⟩,
      parts, rfl, rfl, (List.takeWhile_sublist _).length_le⟩
    simpa using headIsEnd

/-- Reading by descent comes to what the reader comes to, and does not look past the end. -/
theorem exists_parse_eq {tokens : List Token} {limit : Nat} (enough : tokens.length < limit) :
    ∃ cursor, parse limit tokens = ((Tree.ofTokens tokens).mapError Halt.fault, cursor) ∧
      cursor.seen ≤ (Token.beforeEnd tokens).length + 1 ∧
      ∀ trees, Tree.ofTokens tokens = .ok trees →
        3 * trees.length ≤ (Token.beforeEnd tokens).length := by
  obtain ⟨ended, tokens_eq, body_eq, size_eq, size_le⟩ := exists_ended tokens
  have meets : ended.Meets (Tree.ofTokens tokens) (program limit limit #[]) 0 _ :=
    Ended.meets_program (by omega) ⟨Nat.zero_le _, Ended.onward_zero body_eq⟩ (Nat.zero_le _)
      (by omega)
  obtain ⟨result, cursor, run_eq, seen_le, ends⟩ := meets 0 (Nat.zero_le _)
  rw [tokens_eq] at run_eq
  refine ⟨cursor, ?_, size_eq ▸ seen_le, ?_⟩
  · rw [parse, run_eq]
    cases ends with
    | result isDone => rw [isDone.1]; rfl
    | fault same => rw [same]; rfl
  · intro trees whole_eq
    cases ends with
    | result isDone =>
      rw [Except.ok.inj (whole_eq.symm.trans isDone.1), ← size_eq]
      exact isDone.2
    | fault same => cases whole_eq.symm.trans same

/-- A statement is read from the tokens up to the end, and from enough of them. -/
theorem fitsBetween_of_statement {tokens : List Token} {limit : Nat}
    (enough : tokens.length < limit) {cursor later : Cursor} {tree : Tree}
    (inside : cursor.index < (Token.beforeEnd tokens).length)
    (seen_le : cursor.seen ≤ (Token.beforeEnd tokens).length + 1)
    (run_eq : (statement limit).runFrom (supplied tokens) cursor = (.ok tree, later)) :
    tree.FitsBetween cursor.index later.index ∧
      later.index ≤ (Token.beforeEnd tokens).length := by
  obtain ⟨ended, tokens_eq, -, size_eq, size_le⟩ := exists_ended tokens
  rw [← size_eq] at inside seen_le
  have stands : ended.Stands (ended.onward .start #[] cursor.index) .start #[] cursor.index :=
    ⟨Nat.le_of_lt inside, rfl⟩
  have meets := Ended.meets_statement stands inside (Nat.lt_of_le_of_lt size_le enough)
  obtain ⟨result, last, run, -, ends⟩ := meets cursor.seen seen_le
  rw [tokens_eq, run_eq] at run
  cases ends with
  | result isDone =>
    cases run
    exact ⟨isDone.1, size_eq ▸ isDone.2.bound⟩
  | fault same => cases run

/-- Reading by descent ends for every list of tokens: with the statements or the fault that the
reader comes to, never at an index without a token and never in a branch that is not to be taken.
It does not look past the first end of input, and what stands behind that does not matter.  Every
statement takes at least four tokens if it binds a name and three if it prints, so that there are at
most a third as many statements as tokens. -/
theorem parse_stays_before_end (tokens : List Token) (limit : Nat)
    (enough : tokens.length < limit) :
    (∃ cursor, parse limit tokens = ((Tree.ofTokens tokens).mapError Halt.fault, cursor) ∧
      cursor.seen ≤ (Token.beforeEnd tokens).length + 1) ∧
    (∀ cursor later tree, cursor.index < (Token.beforeEnd tokens).length →
      cursor.seen ≤ (Token.beforeEnd tokens).length + 1 →
      (statement limit).runFrom (supplied tokens) cursor = (.ok tree, later) →
      tree.FitsBetween cursor.index later.index ∧
        later.index ≤ (Token.beforeEnd tokens).length) ∧
    (∀ trees, Tree.ofTokens tokens = .ok trees →
      3 * trees.length ≤ (Token.beforeEnd tokens).length) ∧
    (∀ before last after, tokens = before ++ last :: after → last.kind = .endOfInput →
      Tree.ofTokens tokens = Tree.ofTokens before ∧
        (parse limit tokens).1 = (parse limit before).1) := by
  obtain ⟨cursor, parse_eq, seen_le, few⟩ := exists_parse_eq enough
  refine ⟨⟨cursor, parse_eq, seen_le⟩, ?_, few, ?_⟩
  · intro cursor later tree
    exact fitsBetween_of_statement enough
  · rintro before last after rfl isEnd
    have same : Tree.ofTokens (before ++ last :: after) = Tree.ofTokens before := by
      rw [Tree.ofTokens, Tree.ofTokens, Token.beforeEnd_append_end before isEnd]
    have shorter : before.length < limit := by
      rw [List.length_append] at enough
      omega
    obtain ⟨_, before_eq, -⟩ := exists_parse_eq shorter
    exact ⟨same, by rw [parse_eq, before_eq, same]⟩

theorem parse_stays_before_end_print :
    let statement : List Token :=
      [⟨.printWord, "print", ⟨0, 5⟩⟩, ⟨.text, "a", ⟨6, 9⟩⟩, ⟨.semicolon, ";", ⟨9, 10⟩⟩]
    let last : Token := ⟨.endOfInput, "", ⟨10, 10⟩⟩
    let tokens := statement ++ last :: [⟨.name, "b", ⟨11, 12⟩⟩]
    let printed : Tree := .print (.text "a" ⟨6, 9⟩) ⟨0, 10⟩
    (∃ cursor, parse 6 tokens = (.ok [printed], cursor) ∧ cursor.seen ≤ 4) ∧
      printed.FitsBetween 0 3 ∧ 3 * [printed].length ≤ 3 ∧
      (parse 6 tokens).1 = (parse 6 statement).1 := by
  intro words last tokens printed
  obtain ⟨parsed, fits, few, same⟩ := parse_stays_before_end tokens 6 (by decide)
  have read : Tree.ofTokens tokens = .ok [printed] := rfl
  have run : (statement 6).runFrom (supplied tokens) ⟨0, 0⟩ = (.ok printed, ⟨3, 3⟩) := by cbv
  rw [read] at parsed
  exact ⟨parsed, (fits ⟨0, 0⟩ ⟨3, 3⟩ printed (by decide) (by decide) run).1, few [printed] read,
    (same words last _ rfl rfl).2⟩

end Descent

end PrintLang
