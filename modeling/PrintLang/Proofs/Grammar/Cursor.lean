import PrintLang.Proofs.Rereading
import PrintLang.Proofs.Viability

/-!
# Reading by descent

The statements of a program can also be read with one function for each rule of the grammar.  These
functions call each other and share a cursor: they look at the token under it, move it past tokens
that may stand there, and go round a loop for the operators of one rank.

Reading in this way can end in ways that are unknown to the reader, which is handed one token after
the other.  It can ask for a token where there is none, come into a branch that ought never to be
taken, or go round a loop forever.  Each of them is a result of its own here, so that nothing is
said about them by the definitions alone.  The cursor also remembers how far the tokens have been
looked at.

## Main Definitions

* `Halt`, `Cursor`, `Descent` — work with a cursor, and what it can end with
* `Descent.statement`, `Descent.program` — the rules of the grammar
* `Descent.parse` — the statements of a list of tokens
* `Ended` — tokens with an end of input among them
* `Ended.Meets` — work that stays in bounds, and what it comes to

## Design Notes

No loop is known to end before this is shown.  Loops are therefore given a number of rounds, and
`Halt.exhausted` says that there were not enough of them.
-/

namespace PrintLang

/-- What reading can end with if there is no result. -/
inductive Halt
  /-- The tokens have a fault. -/
  | fault (fault : Fault)
  /-- There is no token at an index at which one was to be found. -/
  | outOfBounds (index : Nat)
  /-- A branch was taken that ought never to be. -/
  | unreachable
  /-- A loop went on for longer than it was allowed to. -/
  | exhausted

/-- A position in a list of tokens. -/
structure Cursor where
  /-- The index of the next token. -/
  index : Nat
  /-- All tokens that have been looked at stand before this index. -/
  seen : Nat

/-- Work on a list of tokens that moves a cursor. -/
abbrev Descent := ReaderT (List Token) (ExceptT Halt (StateM Cursor))

namespace Descent

variable {α β : Type}

/-- What comes of some work, and where it leaves the cursor. -/
def runFrom (work : Descent α) (tokens : List Token) (cursor : Cursor) : Except Halt α × Cursor :=
  ((work.run tokens).run).run cursor

theorem runFrom_bind (first : Descent β) (next : β → Descent α) (tokens : List Token)
    (cursor : Cursor) :
    (first >>= next).runFrom tokens cursor =
      match first.runFrom tokens cursor with
      | (.ok b, later) => (next b).runFrom tokens later
      | (.error halt, later) => (.error halt, later) := by
  simp only [runFrom, ReaderT.run_bind, ExceptT.run_bind, StateT.run_bind]
  rcases ((first.run tokens).run).run cursor with ⟨result, later⟩
  cases result <;> rfl

/-! ## Tokens -/

/-- Looks for a token at an index. -/
def find? (index : Nat) : Descent (Option Token) := do
  modify fun cursor => { cursor with seen := max cursor.seen (index + 1) }
  return (← read)[index]?

/-- Takes the token at an index. -/
def fetch (index : Nat) : Descent Token := do
  match ← find? index with
  | some token => return token
  | none => throw (.outOfBounds index)

/-- The token under the cursor. -/
def peek : Descent Token := do
  fetch (← get).index

/-- The token before the cursor. -/
def previous : Descent Token := do
  fetch ((← get).index - 1)

/-- Whether the next token is of a kind. -/
def check (kind : TokenKind) : Descent Bool := do
  return (← peek).kind = kind

/-- Whether the token after the next one is of a kind. -/
def checkNext (kind : TokenKind) : Descent Bool := do
  match ← find? ((← get).index + 1) with
  | some token => return token.kind = kind
  | none => return false

/-- Whether the cursor is at an end of input. -/
def isAtEnd : Descent Bool :=
  check .endOfInput

/-- Moves the cursor past the next token and takes it.  The cursor stays before an end of input. -/
def advance : Descent Token := do
  unless ← isAtEnd do
    modify fun cursor => { cursor with index := cursor.index + 1 }
  previous

/-- Moves the cursor past the next token if it is of one of some kinds. -/
def skipAny : List TokenKind → Descent Bool
  | [] => return false
  | kind :: kinds => do
    if ← check kind then
      let _ ← advance
      return true
    else
      skipAny kinds

/-- The fault about the next token.  At the end of the input it is about the token before. -/
def faultHere (complaint : Complaint) : Descent Fault := do
  let found ← peek
  if found.kind = .endOfInput then
    if (← get).index = 0 then
      return complaint.fault found.span .endOfInput ""
    else
      return complaint.fault (.atEnd (← previous).span.stop) .endOfInput ""
  else
    return complaint.about found

/-- Ends reading with a fault about the next token. -/
def refuse (complaint : Complaint) : Descent α := do
  throw (.fault (← faultHere complaint))

/-- Takes the next token, which has to be of a kind. -/
def consume (kind : TokenKind) (text : String) : Descent Token := do
  if ← check kind then
    advance
  else
    refuse { text := text, expected := kind.title }

/-! ## Rules -/

/-- Reads an operand. -/
def operand : Descent Tree := do
  if ← skipAny [.number] then
    let token ← previous
    match Number.ofNumeral? token.lexeme with
    | some value => return .number value token.span
    | none => throw (.fault (Complaint.numeral.about token))
  else if ← skipAny [.text] then
    let token ← previous
    return .text token.lexeme token.span
  else if ← skipAny [.name] then
    let token ← previous
    return .reference token.lexeme token.span
  else
    refuse .operand

/-- The tokens and the operators of a product. -/
def products : List (TokenKind × Operator) :=
  [(.star, .multiply), (.slash, .divide)]

/-- The tokens and the operators of a sum. -/
def sums : List (TokenKind × Operator) :=
  [(.plus, .add), (.minus, .subtract)]

/-- The operator of a kind of tokens. -/
def operatorOf (signs : List (TokenKind × Operator)) (kind : TokenKind) : Descent Operator :=
  match signs.lookup kind with
  | some operator => return operator
  | none => throw .unreachable

/-- Reads operators and the items after them for as long as there are any, and joins them to what
stands before them. -/
def joinAll (signs : List (TokenKind × Operator)) (item : Descent Tree) :
    Nat → Tree → Descent Tree
  | 0, _ => throw .exhausted
  | rounds + 1, left => do
    if ← skipAny (signs.map Prod.fst) then
      let operator ← operatorOf signs (← previous).kind
      let right ← item
      joinAll signs item rounds (left.joined operator right)
    else
      return left

/-- Reads items with operators between them. -/
def chain (signs : List (TokenKind × Operator)) (item : Descent Tree) (limit : Nat) :
    Descent Tree := do
  joinAll signs item limit (← item)

/-- Reads a term. -/
def term (limit : Nat) : Descent Tree :=
  chain products operand limit

/-- Reads an expression. -/
def expression (limit : Nat) : Descent Tree :=
  chain sums (term limit) limit

/-- Reads a statement from its expression on. -/
def body (limit : Nat) (opening : Opening) : Descent Tree := do
  let value ← expression limit
  let semicolon ← consume .semicolon (Complaint.semicolon opening).text
  return opening.statement value semicolon.span.stop

/-- Reads a statement after `var`. -/
def declaration (limit : Nat) : Descent Tree := do
  let word ← previous
  let name ← consume .name Complaint.variableName.text
  let _ ← consume .equals Complaint.equalsSign.text
  body limit (.declaration word.span.start name.lexeme)

/-- Reads a statement that starts with a name. -/
def assignment (limit : Nat) : Descent Tree := do
  let name ← consume .name "Expected variable name in assignment"
  let _ ← consume .equals Complaint.equalsSign.text
  body limit (.assignment name.span.start name.lexeme)

/-- Reads a statement after `print`. -/
def printing (limit : Nat) : Descent Tree := do
  let word ← previous
  body limit (.print word.span.start)

/-- Whether a name and an equals sign come next. -/
def isAtAssignment : Descent Bool := do
  if ← check .name then checkNext .equals else return false

/-- Reads a statement. -/
def statement (limit : Nat) : Descent Tree := do
  if ← skipAny [.varWord] then declaration limit
  else if ← isAtAssignment then assignment limit
  else if ← skipAny [.printWord] then printing limit
  else refuse .statement

/-- Reads statements up to an end of input. -/
def program (limit : Nat) : Nat → Array Tree → Descent (List Tree)
  | 0, _ => throw .exhausted
  | rounds + 1, statements => do
    if ← isAtEnd then
      return statements.toList
    else
      program limit rounds (statements.push (← statement limit))

/-- The tokens with an end of input behind them, unless the last one is such an end. -/
def supplied (tokens : List Token) : List Token :=
  if tokens.getLast?.map Token.kind = some .endOfInput then tokens
  else tokens ++ [⟨.endOfInput, "", .atEnd ((tokens.getLast?.map (·.span.stop)).getD 0)⟩]

/-- Reads the statements of a list of tokens, with a number of rounds for every loop. -/
def parse (limit : Nat) (tokens : List Token) : Except Halt (List Tree) × Cursor :=
  (program limit limit #[]).runFrom (supplied tokens) ⟨0, 0⟩

end Descent

/-! ## Tokens with an end -/

/-- Tokens with an end of input among them. -/
structure Ended where
  /-- The tokens before the first end of input. -/
  body : List Token
  /-- The first end of input. -/
  last : Token
  /-- The tokens after it. -/
  after : List Token
  noEnd : ∀ token ∈ body, token.kind ≠ .endOfInput
  isEnd : last.kind = .endOfInput

namespace Ended

variable (ended : Ended)

/-- All the tokens. -/
def tokens : List Token :=
  ended.body ++ ended.last :: ended.after

/-- The index of the first end of input. -/
def size : Nat :=
  ended.body.length

/-- The position after the token before an index. -/
def stop (index : Nat) : Nat :=
  ((ended.body.take index).getLast?.map (·.span.stop)).getD 0

/-- The token at an index.  The end of the input counts as one that stands after the last token. -/
def upcoming (index : Nat) : Token :=
  Token.nextOrEnd (ended.stop index) (ended.body.drop index)

variable {ended} {index : Nat}

theorem getElem?_body (inside : index < ended.size) :
    ended.body[index]? = some (ended.upcoming index) := by
  have drop_eq := List.drop_eq_getElem_cons inside
  rw [upcoming, Token.nextOrEnd, drop_eq, List.getElem?_eq_getElem inside]
  rfl

theorem upcoming_size :
    ended.upcoming ended.size = ⟨.endOfInput, "", .atEnd (ended.stop ended.size)⟩ := by
  rw [upcoming, size, List.drop_length]
  rfl

theorem stop_succ (inside : index < ended.size) :
    ended.stop (index + 1) = (ended.upcoming index).span.stop := by
  rw [stop, List.take_add_one, getElem?_body inside]
  simp

theorem kind_upcoming_ne (inside : index < ended.size) :
    (ended.upcoming index).kind ≠ .endOfInput :=
  ended.noEnd _ (List.mem_of_getElem? (getElem?_body inside))

/-- The tokens go on before the first end of input. -/
theorem lt_size_of_kind {kind : TokenKind} (bound : index ≤ ended.size)
    (isKind : (ended.upcoming index).kind = kind) (notEnd : kind ≠ .endOfInput) :
    index < ended.size := by
  rcases Nat.lt_or_eq_of_le bound with inside | rfl
  · exact inside
  · rw [upcoming_size] at isKind
    exact absurd isKind.symm notEnd

/-- A token is found at an index.  The first end of input counts as any other one. -/
structure Finds (ended : Ended) (index : Nat) (token : Token) : Prop where
  kind_eq : token.kind = (ended.upcoming index).kind
  eq_upcoming : index < ended.size → token = ended.upcoming index

/-- There are tokens up to the first end of input. -/
theorem exists_finds (bound : index ≤ ended.size) :
    ∃ token, ended.tokens[index]? = some token ∧ ended.Finds index token := by
  rcases Nat.lt_or_eq_of_le bound with inside | rfl
  · refine ⟨ended.upcoming index, ?_, rfl, fun _ => rfl⟩
    rw [tokens, List.getElem?_append_left inside, getElem?_body inside]
  · refine ⟨ended.last, ?_, ?_, fun inside => absurd inside (Nat.lt_irrefl _)⟩
    · simp [tokens, size]
    · rw [upcoming_size, ended.isEnd]

end Ended

/-! ## Work in bounds -/

namespace Ended

variable (ended : Ended) (whole : Except Fault (List Tree)) {α β : Type}

/-- Work ends with a result, of which something is known together with the index at which it leaves
the cursor, or with the fault of the whole list of tokens. -/
inductive Ends (done : α → Nat → Prop) : Except Halt α → Nat → Prop
  | result {a : α} {index : Nat} (isDone : done a index) : Ends done (.ok a) index
  | fault {fault : Fault} {index : Nat} (same : whole = .error fault) :
    Ends done (.error (.fault fault)) index

/-- From an index on, work does not look past the first end of input, and it ends in the way that is
wanted. -/
def Meets (work : Descent α) (index : Nat) (done : α → Nat → Prop) : Prop :=
  ∀ seen ≤ ended.size + 1, ∃ result cursor,
    work.runFrom ended.tokens ⟨index, seen⟩ = (result, cursor) ∧ cursor.seen ≤ ended.size + 1 ∧
      Ends whole done result cursor.index

namespace Meets

variable {ended whole} {index : Nat} {work : Descent α} {done wanted : α → Nat → Prop}

theorem pure {a : α} (isDone : done a index) : ended.Meets whole (Pure.pure a) index done :=
  fun seen bound => ⟨.ok a, ⟨index, seen⟩, rfl, bound, .result isDone⟩

/-- The fault of the tokens ends all work. -/
theorem throw {fault : Fault} (same : whole = .error fault) :
    ended.Meets whole (throwThe Halt (.fault fault) : Descent α) index done :=
  fun seen bound => ⟨_, ⟨index, seen⟩, rfl, bound, .fault same⟩

theorem bind {first : Descent β} {next : β → Descent α} {middle : β → Nat → Prop}
    (meets : ended.Meets whole first index middle)
    (goesOn : ∀ b later, middle b later → ended.Meets whole (next b) later done) :
    ended.Meets whole (first >>= next) index done := by
  intro seen bound
  obtain ⟨result, ⟨later, seen⟩, run_eq, seenBound, ends⟩ := meets seen bound
  cases ends with
  | result isDone =>
    obtain ⟨result, cursor, run_next, nextBound, ends⟩ := goesOn _ later isDone seen seenBound
    refine ⟨result, cursor, ?_, nextBound, ends⟩
    rw [Descent.runFrom_bind, run_eq]
    exact run_next
  | fault same =>
    refine ⟨_, ⟨later, seen⟩, ?_, seenBound, .fault same⟩
    rw [Descent.runFrom_bind, run_eq]

theorem mono (meets : ended.Meets whole work index done)
    (weaker : ∀ a later, done a later → wanted a later) : ended.Meets whole work index wanted := by
  intro seen bound
  obtain ⟨result, cursor, run_eq, seenBound, ends⟩ := meets seen bound
  refine ⟨result, cursor, run_eq, seenBound, ?_⟩
  cases ends with
  | result isDone => exact .result (weaker _ _ isDone)
  | fault same => exact .fault same

end Meets

/-! ### Tokens -/

section

variable {ended whole} {index target : Nat} {complaint : Complaint} {kind : TokenKind}

theorem meets_get :
    ended.Meets whole (get : Descent Cursor) index fun cursor later =>
      cursor.index = index ∧ later = index :=
  fun seen bound => ⟨_, ⟨index, seen⟩, rfl, bound, .result ⟨rfl, rfl⟩⟩

theorem meets_find? (bound : target ≤ ended.size) :
    ended.Meets whole (Descent.find? target) index fun found later =>
      found = ended.tokens[target]? ∧ later = index := by
  intro seen seenBound
  refine ⟨_, ⟨index, max seen (target + 1)⟩, rfl, ?_, .result ⟨rfl, rfl⟩⟩
  exact Nat.max_le.mpr ⟨seenBound, Nat.succ_le_succ bound⟩

theorem meets_fetch (bound : target ≤ ended.size) :
    ended.Meets whole (Descent.fetch target) index fun token later =>
      ended.Finds target token ∧ later = index := by
  refine (meets_find? bound).bind ?_
  rintro found later ⟨rfl, rfl⟩
  obtain ⟨token, found_eq, finds⟩ := exists_finds bound
  rw [found_eq]
  exact .pure ⟨finds, rfl⟩

theorem meets_peek (bound : index ≤ ended.size) :
    ended.Meets whole Descent.peek index fun token later =>
      ended.Finds index token ∧ later = index := by
  refine meets_get.bind ?_
  rintro cursor later ⟨rfl, rfl⟩
  exact meets_fetch bound

theorem meets_previous (inside : index < ended.size) :
    ended.Meets whole Descent.previous (index + 1) fun token later =>
      token = ended.upcoming index ∧ later = index + 1 := by
  refine meets_get.bind ?_
  rintro cursor later ⟨cursor_eq, rfl⟩
  rw [cursor_eq, Nat.add_sub_cancel]
  refine (meets_fetch (Nat.le_of_lt inside)).mono ?_
  rintro token later ⟨finds, rfl⟩
  exact ⟨finds.eq_upcoming inside, rfl⟩

theorem meets_check (bound : index ≤ ended.size) :
    ended.Meets whole (Descent.check kind) index fun same later =>
      same = decide ((ended.upcoming index).kind = kind) ∧ later = index := by
  refine (meets_peek bound).bind ?_
  rintro token later ⟨finds, rfl⟩
  rw [finds.kind_eq]
  exact .pure ⟨rfl, rfl⟩

/-- One token further there is still one, if the cursor is not at an end of input. -/
theorem meets_checkNext (inside : index < ended.size) :
    ended.Meets whole (Descent.checkNext kind) index fun same later =>
      same = decide ((ended.upcoming (index + 1)).kind = kind) ∧ later = index := by
  refine meets_get.bind ?_
  rintro cursor later ⟨rfl, rfl⟩
  refine (meets_find? inside).bind ?_
  rintro found later ⟨rfl, rfl⟩
  obtain ⟨token, found_eq, finds⟩ := exists_finds inside
  rw [found_eq, ← finds.kind_eq]
  exact .pure ⟨rfl, rfl⟩

theorem meets_isAtEnd (bound : index ≤ ended.size) :
    ended.Meets whole Descent.isAtEnd index fun atEnd later =>
      atEnd = decide (index = ended.size) ∧ later = index := by
  refine (meets_check bound).mono ?_
  rintro atEnd later ⟨rfl, rfl⟩
  refine ⟨decide_eq_decide.mpr ?_, rfl⟩
  constructor
  · intro isEnd
    by_contra notSize
    exact kind_upcoming_ne (by omega) isEnd
  · rintro rfl
    rw [upcoming_size]

theorem meets_advance (inside : index < ended.size) :
    ended.Meets whole Descent.advance index fun token later =>
      token = ended.upcoming index ∧ later = index + 1 := by
  refine (meets_isAtEnd (Nat.le_of_lt inside)).bind ?_
  rintro atEnd later ⟨rfl, rfl⟩
  rw [decide_eq_false (Nat.ne_of_lt inside)]
  have moves : ended.Meets whole
      (modify fun cursor => { cursor with index := cursor.index + 1 } : Descent PUnit) later
      fun _ moved => moved = later + 1 :=
    fun seen bound => ⟨_, ⟨later + 1, seen⟩, rfl, bound, .result rfl⟩
  refine moves.bind ?_
  rintro _ moved rfl
  exact meets_previous inside

/-- Either the cursor is moved past a token of one of the kinds, or there is none. -/
theorem meets_skipAny {kinds : List TokenKind} (bound : index ≤ ended.size)
    (notEnd : .endOfInput ∉ kinds) :
    ended.Meets whole (Descent.skipAny kinds) index fun skipped later =>
      skipped = true ∧ index < ended.size ∧ (ended.upcoming index).kind ∈ kinds ∧
          later = index + 1 ∨
        skipped = false ∧ (ended.upcoming index).kind ∉ kinds ∧ later = index := by
  induction kinds with
  | nil => exact .pure (Or.inr ⟨rfl, List.not_mem_nil, rfl⟩)
  | cons kind kinds ih =>
    obtain ⟨kindNotEnd, notEnd⟩ := not_or.mp (mt List.mem_cons.mpr notEnd)
    refine (meets_check bound).bind ?_
    rintro same later ⟨rfl, rfl⟩
    by_cases isKind : (ended.upcoming later).kind = kind
    · rw [decide_eq_true isKind]
      have inside := lt_size_of_kind bound isKind (Ne.symm kindNotEnd)
      refine (meets_advance inside).bind ?_
      rintro token moved ⟨rfl, rfl⟩
      exact .pure (Or.inl ⟨rfl, inside, isKind ▸ List.mem_cons_self, rfl⟩)
    · rw [decide_eq_false isKind]
      refine (ih notEnd).mono ?_
      rintro skipped moved (⟨rfl, inside, member, rfl⟩ | ⟨rfl, notMember, rfl⟩)
      · exact Or.inl ⟨rfl, inside, List.mem_cons_of_mem kind member, rfl⟩
      · exact Or.inr ⟨rfl, by simp [isKind, notMember], rfl⟩

theorem meets_skip (bound : index ≤ ended.size) (notEnd : kind ≠ .endOfInput) :
    ended.Meets whole (Descent.skipAny [kind]) index fun skipped later =>
      skipped = true ∧ index < ended.size ∧ (ended.upcoming index).kind = kind ∧
          later = index + 1 ∨
        skipped = false ∧ (ended.upcoming index).kind ≠ kind ∧ later = index := by
  refine (meets_skipAny bound (mt List.mem_singleton.mp notEnd.symm)).mono ?_
  simp only [List.mem_singleton]
  exact fun _ _ skipped => skipped

/-- The end of the input is refused like a token that stands after the last one. -/
theorem meets_faultHere (bound : index ≤ ended.size) (behind : 0 < index ∨ index < ended.size) :
    ended.Meets whole (Descent.faultHere complaint) index fun fault later =>
      fault = complaint.about (ended.upcoming index) ∧ later = index := by
  refine (meets_peek bound).bind ?_
  rintro token later ⟨finds, rfl⟩
  rcases Nat.lt_or_eq_of_le bound with inside | rfl
  · rw [if_neg (finds.kind_eq ▸ kind_upcoming_ne inside), finds.eq_upcoming inside]
    exact .pure ⟨rfl, rfl⟩
  · have isEnd : token.kind = .endOfInput := by rw [finds.kind_eq, upcoming_size]
    rw [if_pos isEnd]
    refine meets_get.bind ?_
    rintro cursor later ⟨cursor_eq, rfl⟩
    have positive : 0 < ended.size := by omega
    obtain ⟨before, size_eq⟩ := Nat.exists_eq_succ_of_ne_zero (Nat.ne_of_gt positive)
    rw [cursor_eq, if_neg (Nat.ne_of_gt positive), size_eq]
    refine (meets_previous (by omega)).bind ?_
    rintro last later ⟨rfl, rfl⟩
    refine .pure ⟨?_, rfl⟩
    rw [← stop_succ (by omega), ← Nat.succ_eq_add_one, ← size_eq, upcoming_size]
    rfl

theorem meets_refuse {done : α → Nat → Prop} (bound : index ≤ ended.size)
    (behind : 0 < index ∨ index < ended.size)
    (same : whole = .error (complaint.about (ended.upcoming index))) :
    ended.Meets whole (Descent.refuse complaint) index done := by
  refine (meets_faultHere bound behind).bind ?_
  rintro fault later ⟨rfl, rfl⟩
  exact .throw same

/-- A token of a kind is taken, or its absence is the fault of the tokens. -/
theorem meets_consume {text : String} (bound : index ≤ ended.size)
    (behind : 0 < index ∨ index < ended.size) (notEnd : kind ≠ .endOfInput)
    (refused : (ended.upcoming index).kind ≠ kind → whole =
      .error (Complaint.about { text := text, expected := kind.title } (ended.upcoming index))) :
    ended.Meets whole (Descent.consume kind text) index fun token later =>
      token = ended.upcoming index ∧ token.kind = kind ∧ index < ended.size ∧
        later = index + 1 := by
  refine (meets_check bound).bind ?_
  rintro same later ⟨rfl, rfl⟩
  by_cases isKind : (ended.upcoming later).kind = kind
  · rw [decide_eq_true isKind]
    have inside := lt_size_of_kind bound isKind notEnd
    refine (meets_advance inside).mono ?_
    rintro token moved ⟨rfl, rfl⟩
    exact ⟨rfl, isKind, inside, rfl⟩
  · rw [decide_eq_false isKind]
    exact meets_refuse bound behind (refused isKind)

end

end Ended

end PrintLang
