import PrintLang.Proofs.Number.Literal
import PrintLang.Proofs.Refusal

/-!
# The first token that cannot stand

A sequence of kinds is *viable* if some program starts with it.  The reader takes tokens exactly as
long as their kinds are viable: every place in the grammar leads back to the start of a statement,
so what has been read can be completed, and whatever can be completed is read on the way.  The fault
of a text that is no program is therefore at the first token that no program goes on with.

There is one exception, which the reader makes on purpose.  A statement that starts with a name can
only be an assignment, and if no equals sign follows, then the fault is about the name, one token
before the one that cannot stand there.

## Main Definitions

* `Grammar.Viable` — some program starts with these kinds
* `Grammar.BreaksAt` — what stands at an index does not go on with what stands before it
* `Grammar.alternatives` — what may follow, according to a fault
* `Fault.Describes`, `Grammar.Blames` — what a fault of reading says, and why it is said there

## Main Statements

* `Reader.viable_of_feed`, `Reader.exists_feed_of_viable` — the reader takes what is viable
* `Token.numeralsDenote_of_scan` — the numbers of a source text denote doubles
* `Tree.blames_first_of_ofTokens` — a fault blames the first token that cannot stand
-/

namespace PrintLang

namespace Grammar

/-- Some program starts with these kinds. -/
def Viable (kinds : List TokenKind) : Prop :=
  ∃ rest, kinds ++ rest ∈ program

/-- What stands at an index does not go on with what stands before it: the kind there, or the end
after all kinds. -/
def BreaksAt (kinds : List TokenKind) (index : Nat) : Prop :=
  if index < kinds.length then ¬ Viable (kinds.take (index + 1)) else kinds ∉ program

theorem breaksAt_end {kinds : List TokenKind} : BreaksAt kinds kinds.length ↔ kinds ∉ program := by
  rw [BreaksAt, if_neg (Nat.lt_irrefl _)]

theorem breaksAt_kind {before after : List TokenKind} {kind : TokenKind} :
    BreaksAt (before ++ kind :: after) before.length ↔ ¬ Viable (before ++ [kind]) := by
  have inside : before.length < (before ++ kind :: after).length := by simp
  have take_eq : (before ++ kind :: after).take (before.length + 1) = before ++ [kind] := by
    rw [List.take_length_add_append]
    rfl
  rw [BreaksAt, if_pos inside, take_eq]

/-- What a fault can expect: the alternatives that its text names, each with the kinds with which
it starts. -/
def alternatives : List (String × List (List TokenKind)) :=
  [("'var', 'print' or an assignment", [[.varWord], [.printWord], [.name, .equals]]),
    ("Identifier", [[.name]]),
    ("Equal", [[.equals]]),
    ("number, string, or identifier", [[.number], [.text], [.name]]),
    ("Semicolon", [[.semicolon]])]

end Grammar

/-! ## Numbers -/

/-- A run of digits denotes a double. -/
theorem IsDigits.exists_ofNumeral? {digits : List Char} (isDigits : IsDigits digits) :
    ∃ value, Number.ofNumeral? (String.ofList digits) = some value :=
  ⟨_, isDigits.ofNumeral?_eq⟩

/-- The numbers of a source text denote doubles. -/
theorem Token.numeralsDenote_of_scan {source : String} {scan : Scan}
    (scans : Token.scan source = .ok scan) :
    Token.NumeralsDenote (Token.beforeEnd scan.tokens) := by
  intro token member isNumber
  have fits := (Token.segmentation_of_scan scans).fits token member
  have isDigits : IsDigits (token.span.slice source.toList) := (fits.kind_eq_iff _).mp isNumber
  have notText : token.kind ≠ .text := by
    rw [isNumber]
    decide
  rw [fits.slice_eq notText] at isDigits
  obtain ⟨value, denotes⟩ := isDigits.exists_ofNumeral?
  rw [String.ofList_toList] at denotes
  exact Option.isSome_of_eq_some denotes

/-! ## Taking what is viable -/

/-- Some token of a kind. -/
def Token.sample (kind : TokenKind) : Token :=
  ⟨kind, "0", ⟨0, 0⟩⟩

theorem Token.map_kind_sample (kinds : List TokenKind) :
    (kinds.map Token.sample).map Token.kind = kinds := by
  rw [List.map_map]
  exact List.map_id kinds

/-- The lexeme of samples is a digit, so that even a number has a sample. -/
theorem Token.exists_ofNumeral?_sample (kind : TokenKind) :
    ∃ value, Number.ofNumeral? (Token.sample kind).lexeme = some value := by
  have isDigits : IsDigits ['0'] := ⟨List.cons_ne_nil _ _, List.forall_mem_singleton.mpr rfl⟩
  exact isDigits.exists_ofNumeral?

theorem Token.numeralsDenote_sample (kinds : List TokenKind) :
    Token.NumeralsDenote (kinds.map Token.sample) := by
  intro token member _
  obtain ⟨kind, -, rfl⟩ := List.mem_map.mp member
  exact Option.isSome_iff_exists.mpr (Token.exists_ofNumeral?_sample kind)

open Place (Leads) in
/-- From every place, some kinds lead to the start of the next statement. -/
theorem Place.exists_leads_start (place : Place) :
    ∃ (kinds : List TokenKind) (completed : List Tree),
      place.Leads (kinds.map Token.sample) .start completed := by
  have operator (opening : Opening) (sum : Option (Tree × Operator)) (term : Tree) :
      Leads (.operator opening sum term) [Token.sample .semicolon] .start _ := .of_step_some rfl
  have operand (opening : Opening) (waiting : Waiting) :
      Leads (.operand opening waiting) ([Token.sample .name] ++ [Token.sample .semicolon])
        .start _ :=
    Leads.trans (.of_step rfl) (operator _ _ _)
  cases place with
  | start => exact ⟨[], [], .refl .start⟩
  | afterName name =>
    exact ⟨[.equals, .name, .semicolon], _, Leads.trans (.of_step rfl) (operand _ _)⟩
  | afterVar first =>
    have word : Leads (.afterVar first) [Token.sample .name] (.afterVarName first "0") [] :=
      .of_step rfl
    have equals : Leads (.afterVarName first "0") [Token.sample .equals] _ [] := .of_step rfl
    exact ⟨[.name, .equals, .name, .semicolon], _, word.trans (equals.trans (operand _ _))⟩
  | afterVarName first name =>
    exact ⟨[.equals, .name, .semicolon], _, Leads.trans (.of_step rfl) (operand _ _)⟩
  | operand opening waiting => exact ⟨[.name, .semicolon], _, operand _ _⟩
  | operator opening sum term => exact ⟨[.semicolon], _, operator _ _ _⟩

/-- Some kinds lead on from a place. -/
def Place.Takes (place : Place) (kinds : List TokenKind) : Prop :=
  ∃ (next : Place) (completed : List Tree), place.Leads (kinds.map Token.sample) next completed

open Place (Leads) in
/-- The place takes everything that its complaint expects.  A complaint after a name is not about
what follows the name, so it expects nothing there. -/
theorem Place.exists_alternatives (place : Place) (notAfterName : ∀ name, place ≠ .afterName name) :
    ∃ words, (place.complaint.expected, words) ∈ Grammar.alternatives ∧
      ∀ word ∈ words, place.Takes word := by
  have one {kind : TokenKind} {next : Place}
      (step : place.step (Token.sample kind) = .ok (next, none)) : place.Takes [kind] :=
    ⟨next, [], .of_step step⟩
  have listed {row : String × List (List TokenKind)} (index : Nat)
      (row_eq : Grammar.alternatives[index]? = some row) : row ∈ Grammar.alternatives :=
    List.mem_of_getElem? row_eq
  cases place with
  | start =>
    have assignment : Leads .start ([Token.sample .name] ++ [Token.sample .equals])
        (.expression (.assignment 0 "0")) [] := Leads.trans (.of_step rfl) (.of_step rfl)
    refine ⟨[[.varWord], [.printWord], [.name, .equals]], listed 0 rfl, ?_⟩
    rw [List.forall_mem_cons, List.forall_mem_cons, List.forall_mem_singleton]
    exact ⟨one rfl, one rfl, _, _, assignment⟩
  | afterName name => exact absurd rfl (notAfterName name)
  | afterVar first => exact ⟨[[.name]], listed 1 rfl, List.forall_mem_singleton.mpr (one rfl)⟩
  | afterVarName first name =>
    exact ⟨[[.equals]], listed 2 rfl, List.forall_mem_singleton.mpr (one rfl)⟩
  | operand opening waiting =>
    refine ⟨[[.number], [.text], [.name]], listed 3 rfl, ?_⟩
    rw [List.forall_mem_cons, List.forall_mem_cons, List.forall_mem_singleton]
    obtain ⟨value, denotes⟩ := Token.exists_ofNumeral?_sample .number
    have leaf_eq : leaf? (Token.sample .number) = .ok (some (.number value ⟨0, 0⟩)) := by
      rw [leaf?, denotes]
      rfl
    have number : (Place.operand opening waiting).step (Token.sample .number) =
        .ok (afterOperand opening waiting (.number value ⟨0, 0⟩), none) := by
      rw [step, leaf_eq]
    exact ⟨one number, one rfl, one rfl⟩
  | operator opening sum term =>
    exact ⟨[[.semicolon]], listed 4 rfl, List.forall_mem_singleton.mpr ⟨_, _, .of_step_some rfl⟩⟩

namespace Reader

variable {tokens : List Token} {reader : Reader}

/-- What has been read up to the start of a statement is a program. -/
theorem mem_program_of_feed (fed : initial.feed tokens = .ok reader)
    (atStart : reader.place = .start) : tokens.map Token.kind ∈ Grammar.program := by
  obtain ⟨statements, fragment, knows⟩ := exists_knows_of_feed fed
  have tokens_eq := knows.tokens_eq_of_start atStart
  exact ((derives_program tokens).mp ⟨statements, tokens_eq.symm⟩).1

/-- If some kinds lead on from a reader, then what it has read is viable with them. -/
theorem viable_of_leads (fed : initial.feed tokens = .ok reader) {kinds : List TokenKind}
    {next : Place} {completed : List Tree}
    (leads : reader.place.Leads (kinds.map Token.sample) next completed) :
    Grammar.Viable (tokens.map Token.kind ++ kinds) := by
  obtain ⟨rest, more, completes⟩ := next.exists_leads_start
  obtain ⟨stop, whole⟩ := (leads.trans completes) reader.statements reader.stop
  have fedWhole := feed_append initial tokens (kinds.map Token.sample ++ rest.map Token.sample)
  rw [fed] at fedWhole
  have member := mem_program_of_feed (fedWhole.trans whole) rfl
  rw [List.map_append, List.map_append, Token.map_kind_sample, Token.map_kind_sample,
    ← List.append_assoc] at member
  exact ⟨rest, member⟩

/-- What has been read is viable. -/
theorem viable_of_feed (fed : initial.feed tokens = .ok reader) :
    Grammar.Viable (tokens.map Token.kind) := by
  have nowhere : reader.place.Leads (([] : List TokenKind).map Token.sample) reader.place [] :=
    .refl reader.place
  have viable := viable_of_leads fed nowhere
  rwa [List.append_nil] at viable

/-- What is viable is read. -/
theorem exists_feed_of_viable (denote : Token.NumeralsDenote tokens)
    (viable : Grammar.Viable (tokens.map Token.kind)) :
    ∃ reader, initial.feed tokens = .ok reader := by
  obtain ⟨rest, member⟩ := viable
  have kinds_eq : (tokens ++ rest.map Token.sample).map Token.kind =
      tokens.map Token.kind ++ rest := by
    rw [List.map_append, Token.map_kind_sample]
  rw [← kinds_eq] at member
  have allDenote := Token.numeralsDenote_append.mpr ⟨denote, Token.numeralsDenote_sample rest⟩
  obtain ⟨program, same⟩ := (derives_program _).mpr ⟨member, allDenote⟩
  obtain ⟨stop, fed⟩ := Statement.leads_program program #[] 0
  dsimp only at same
  rw [same, feed_append] at fed
  split at fed
  · next reader firstFed => exact ⟨reader, firstFed⟩
  · cases fed

end Reader

/-! ## Where reading breaks off -/

/-- What follows some tokens: the next one, or the end of the input after them. -/
def Token.nextOrEnd (stop : Nat) (after : List Token) : Token :=
  after.head?.getD ⟨.endOfInput, "", .atEnd stop⟩

namespace Place

/-- The end of the tokens is refused like a token. -/
theorem refuseEnd_eq_refuse (place : Place) (stop : Nat) :
    place.refuseEnd stop = place.refuse (Token.nextOrEnd stop []) := by
  cases place <;> rfl

/-- A place refuses a token for the place, unless the token is a number that denotes none. -/
theorem eq_refuse_of_step {place : Place} {token : Token} {fault : Fault}
    (denotes : token.kind = .number → (Number.ofNumeral? token.lexeme).isSome)
    (step_eq : place.step token = .error fault) : fault = place.refuse token := by
  cases place with
  | operand opening waiting =>
    have leaf_ne (other : Fault) : leaf? token ≠ .error other := by
      obtain ⟨kind, lexeme, span⟩ := token
      intro same
      cases kind with
      | number =>
        obtain ⟨value, value_eq⟩ := Option.isSome_iff_exists.mp (denotes rfl)
        rw [leaf?, value_eq] at same
        cases same
      | _ => cases same
    unfold step at step_eq
    dsimp only at step_eq
    split at step_eq
    · cases step_eq
    · exact (Except.error.inj step_eq).symm
    · next leaf_eq => exact absurd leaf_eq (leaf_ne _)
  | start | afterName | afterVar | afterVarName | operator =>
    unfold step at step_eq
    dsimp only at step_eq
    split at step_eq
    all_goals cases step_eq
    rfl

end Place

/-- Reading breaks off behind some tokens, at what follows them. -/
structure Token.BreaksOff (tokens : List Token) (fault : Fault) (before after : List Token)
    (reader : Reader) : Prop where
  tokens_eq : tokens = before ++ after
  fed : Reader.initial.feed before = .ok reader
  refused : fault = reader.place.refuse (Token.nextOrEnd reader.stop after)
  breaks : Grammar.BreaksAt (tokens.map Token.kind) before.length

/-- Tokens that are refused are refused where reading them breaks off. -/
theorem Token.exists_breaksOff_of_ofTokens {tokens : List Token} {fault : Fault}
    (denote : Token.NumeralsDenote (Token.beforeEnd tokens))
    (refused : Tree.ofTokens tokens = .error fault) :
    ∃ before after reader, BreaksOff (Token.beforeEnd tokens) fault before after reader := by
  have noProgram : (Token.beforeEnd tokens).map Token.kind ∉ Grammar.program := by
    intro member
    obtain ⟨program, same⟩ := (derives_program _).mpr ⟨member, denote⟩
    cases refused.symm.trans (Tree.ofTokens_of_derivation same)
  rw [Tree.ofTokens] at refused
  generalize Token.beforeEnd tokens = all at *
  split at refused
  · next reader fed =>
    rw [Reader.finish] at refused
    split at refused
    · cases refused
    · refine ⟨all, [], reader, (List.append_nil all).symm, fed, ?_, ?_⟩
      · rw [← Place.refuseEnd_eq_refuse]
        exact (Except.error.inj refused).symm
      · rw [← List.length_map]
        exact Grammar.breaksAt_end.mpr noProgram
  · next other fed =>
    cases refused
    obtain ⟨before, token, after, middle, rfl, beforeFed, refuses⟩ := Reader.exists_step_of_feed fed
    obtain ⟨beforeDenote, afterDenote⟩ := Token.numeralsDenote_append.mp denote
    have tokenDenotes := afterDenote token List.mem_cons_self
    refine ⟨before, token :: after, middle, rfl, beforeFed,
      Place.eq_refuse_of_step tokenDenotes refuses, ?_⟩
    rw [List.map_append, List.map_cons, ← List.length_map, Grammar.breaksAt_kind]
    intro viable
    have upToDenote : Token.NumeralsDenote (before ++ [token]) :=
      Token.numeralsDenote_append.mpr ⟨beforeDenote, List.forall_mem_singleton.mpr tokenDenotes⟩
    have kinds_eq : (before ++ [token]).map Token.kind = before.map Token.kind ++ [token.kind] :=
      List.map_append
    obtain ⟨reader, fedOn⟩ := Reader.exists_feed_of_viable upToDenote (kinds_eq ▸ viable)
    rw [Reader.feed_append, beforeFed] at fedOn
    simp [Reader.feed, Reader.step, refuses] at fedOn

/-! ## What a fault says -/

/-- A fault describes what stands at an index: the token there, or the end after all tokens.  The
end is that of the last token, of which there is one. -/
structure Fault.Describes (fault : Fault) (tokens : List Token) (index : Nat)
    (complaint expected : String) : Prop where
  index_le : index ≤ tokens.length
  of_token : ∀ token, tokens[index]? = some token →
    fault.cause = .unexpectedToken complaint expected token.kind token.lexeme ∧
      fault.message =
        complaint ++ ", found " ++ (token.kind.title ++ " '" ++ token.lexeme ++ "'") ∧
      fault.span = token.span
  of_end : index = tokens.length →
    fault.cause = .unexpectedToken complaint expected .endOfInput "" ∧
      fault.message = complaint ++ ", found " ++ "end of input" ∧
      ∃ last, tokens.getLast? = some last ∧
        fault.span = ⟨max last.span.stop 1 - 1, last.span.stop⟩

/-- A complaint with something expected is made at an index of some kinds, since nothing goes on
with what stands there.  A complaint about a statement at a name is made one kind too early: the
name can stand there, but what follows the name cannot. -/
structure Grammar.Blames (kinds : List TokenKind) (index : Nat) (complaint expected : String) :
    Prop where
  viable : Viable (kinds.take index)
  breaks : ¬ (complaint = "Unknown statement" ∧ kinds[index]? = some .name) → BreaksAt kinds index
  breaks_after_name : complaint = "Unknown statement" ∧ kinds[index]? = some .name →
    Viable (kinds.take (index + 1)) ∧ BreaksAt kinds (index + 1)
  expects : ∃ words, (expected, words) ∈ alternatives ∧
    ∀ word ∈ words, Viable (kinds.take index ++ word)

theorem Complaint.describes_about (complaint : Complaint) {tokens : List Token} {index : Nat}
    {token : Token} (here : tokens[index]? = some token) (notEnd : token.kind ≠ .endOfInput) :
    (complaint.about token).Describes tokens index complaint.text complaint.expected := by
  obtain ⟨bound, -⟩ := List.getElem?_eq_some_iff.mp here
  refine ⟨bound.le, fun other same => ?_, fun atEnd => absurd atEnd bound.ne⟩
  obtain rfl := Option.some.inj (here.symm.trans same)
  have found_eq : Cause.foundText token.kind token.lexeme = _ := if_neg notEnd
  refine ⟨rfl, ?_, rfl⟩
  rw [← found_eq]
  rfl

theorem Complaint.describes_end (complaint : Complaint) {tokens : List Token} {last : Token}
    (isLast : tokens.getLast? = some last) :
    (complaint.about (Token.nextOrEnd last.span.stop [])).Describes tokens tokens.length
      complaint.text complaint.expected := by
  refine ⟨Nat.le_refl _, fun token here => ?_, fun _ => ⟨rfl, rfl, last, isLast, ?_⟩⟩
  · rw [List.getElem?_eq_none (Nat.le_refl _)] at here
    cases here
  · have start_eq : max last.span.stop 1 - 1 = last.span.stop - 1 := by omega
    rw [start_eq]
    rfl

/-- Only before a statement is a complaint about a statement made, if not about a name. -/
theorem Place.eq_start_of_complaint {place : Place} (notAfterName : ∀ name, place ≠ .afterName name)
    (text_eq : place.complaint.text = "Unknown statement") : place = .start := by
  cases place with
  | start => rfl
  | afterName name => exact absurd rfl (notAfterName name)
  | afterVar => simp [complaint, Complaint.variableName] at text_eq
  | afterVarName => simp [complaint, Complaint.equalsSign] at text_eq
  | operand => simp [complaint, Complaint.operand] at text_eq
  | operator opening sum term => cases opening <;> simp [complaint, Complaint.semicolon] at text_eq

/-- What is expected at a place would go on with what has been read. -/
theorem Reader.expects_of_feed {tokens : List Token} {reader : Reader}
    (fed : initial.feed tokens = .ok reader)
    (notAfterName : ∀ name, reader.place ≠ .afterName name) :
    ∃ words, (reader.place.complaint.expected, words) ∈ Grammar.alternatives ∧
      ∀ word ∈ words, Grammar.Viable (tokens.map Token.kind ++ word) := by
  obtain ⟨words, listed, takes⟩ := reader.place.exists_alternatives notAfterName
  refine ⟨words, listed, fun word member => ?_⟩
  obtain ⟨next, completed, leads⟩ := takes word member
  exact viable_of_leads fed leads

namespace Token.BreaksOff

variable {tokens before after : List Token} {fault : Fault} {reader : Reader}

theorem take_eq (breaksOff : BreaksOff tokens fault before after reader) :
    (tokens.map Token.kind).take before.length = before.map Token.kind := by
  rw [breaksOff.tokens_eq, List.map_append, ← List.length_map, List.take_left]

/-- A name at the start of a statement is blamed, one token before the one that cannot stand. -/
theorem blames_name (breaksOff : BreaksOff tokens fault before after reader) {name : Token}
    (place_eq : reader.place = .afterName name) :
    ∃ index complaint expected, fault.Describes tokens index complaint expected ∧
      Grammar.Blames (tokens.map Token.kind) index complaint expected := by
  obtain ⟨program, fragment, knows⟩ := Reader.exists_knows_of_feed breaksOff.fed
  obtain ⟨before_eq, isName⟩ := knows.eq_of_afterName place_eq
  obtain ⟨stop, programFed⟩ := Statement.leads_program program #[] 0
  generalize program.flatMap Statement.tokens = first at before_eq programFed
  have tokens_eq := breaksOff.tokens_eq
  have before_take := breaksOff.take_eq
  have breaks := breaksOff.breaks
  have length_eq : before.length = first.length + 1 := by rw [before_eq, List.length_append]; rfl
  rw [length_eq] at before_take breaks
  have here : tokens[first.length]? = some name := by
    rw [tokens_eq, before_eq, List.append_assoc, List.getElem?_append_right (Nat.le_refl _),
      Nat.sub_self]
    rfl
  have kindHere : (tokens.map Token.kind)[first.length]? = some .name := by
    rw [List.getElem?_map, here, Option.map_some, isName]
  have first_take : (tokens.map Token.kind).take first.length = first.map Token.kind := by
    rw [tokens_eq, before_eq, List.append_assoc, List.map_append, ← List.length_map, List.take_left]
  have describes : fault.Describes tokens first.length Complaint.statement.text
      Complaint.statement.expected := by
    rw [breaksOff.refused, place_eq]
    refine Complaint.statement.describes_about here ?_
    rw [isName]
    decide
  refine ⟨first.length, _, _, describes, ?_, ?_, ?_, ?_⟩
  · rw [first_take]
    exact Reader.viable_of_feed programFed
  · exact fun notName => absurd ⟨rfl, kindHere⟩ notName
  · rw [before_take]
    exact fun _ => ⟨Reader.viable_of_feed breaksOff.fed, breaks⟩
  · rw [first_take]
    exact Reader.expects_of_feed programFed nofun

/-- Everywhere else, the fault describes what follows. -/
theorem describes_next (breaksOff : BreaksOff tokens fault before after reader)
    (notAfterName : ∀ name, reader.place ≠ .afterName name)
    (noEnd : ∀ token ∈ tokens, token.kind ≠ .endOfInput) :
    fault.Describes tokens before.length reader.place.complaint.text
      reader.place.complaint.expected := by
  have fault_eq : fault = reader.place.complaint.about (Token.nextOrEnd reader.stop after) := by
    rw [breaksOff.refused]
    cases place_eq : reader.place with
    | afterName name => exact absurd place_eq (notAfterName name)
    | start | afterVar | afterVarName | operand | operator => rfl
  obtain ⟨rfl, fed, -, breaks⟩ := breaksOff
  rw [fault_eq]
  cases after with
  | nil =>
    -- At the start of a statement the end would not break anything off.
    have left : reader.place ≠ .start := by
      intro atStart
      rw [List.append_nil, ← List.length_map, Grammar.breaksAt_end] at breaks
      exact breaks (Reader.mem_program_of_feed fed atStart)
    obtain ⟨last, isLast, stop_eq⟩ := Reader.exists_getLast?_of_feed fed left
    rw [stop_eq, List.append_nil]
    exact reader.place.complaint.describes_end isLast
  | cons token rest =>
    refine reader.place.complaint.describes_about ?_ (noEnd token (by simp))
    rw [List.getElem?_append_right (Nat.le_refl _), Nat.sub_self]
    rfl

/-- Before a statement, nothing breaks off at a name. -/
theorem next_ne_name (breaksOff : BreaksOff tokens fault before after reader)
    (atStart : reader.place = .start) : (tokens.map Token.kind)[before.length]? ≠ some .name := by
  intro isName
  obtain ⟨rfl, fed, -, breaks⟩ := breaksOff
  have name : Place.start.Leads ([TokenKind.name].map Token.sample)
      (.afterName (Token.sample .name)) [] := .of_step rfl
  rw [← atStart] at name
  have viable := Reader.viable_of_leads fed name
  cases after with
  | nil => simp at isName
  | cons token rest =>
    rw [List.map_append, List.map_cons, ← List.length_map, Grammar.breaksAt_kind] at breaks
    simp at isName
    exact breaks (isName ▸ viable)

/-- Everywhere else, what follows is blamed itself. -/
theorem blames_next (breaksOff : BreaksOff tokens fault before after reader)
    (notAfterName : ∀ name, reader.place ≠ .afterName name)
    (noEnd : ∀ token ∈ tokens, token.kind ≠ .endOfInput) :
    ∃ index complaint expected, fault.Describes tokens index complaint expected ∧
      Grammar.Blames (tokens.map Token.kind) index complaint expected := by
  refine ⟨before.length, _, _, breaksOff.describes_next notAfterName noEnd, ?_,
    fun _ => breaksOff.breaks, ?_, ?_⟩
  · rw [breaksOff.take_eq]
    exact Reader.viable_of_feed breaksOff.fed
  · rintro ⟨text_eq, isName⟩
    have atStart := Place.eq_start_of_complaint notAfterName text_eq
    exact absurd isName (breaksOff.next_ne_name atStart)
  · rw [breaksOff.take_eq]
    exact Reader.expects_of_feed breaksOff.fed notAfterName

end Token.BreaksOff

/-! ## The first token that cannot stand -/

/-- **A fault of reading blames the first token that no program goes on with.**

This holds for all lists of tokens whose numbers denote doubles, which those of a source text always
do.  The fault describes a token, or the end of the input after all tokens: its kind and its lexeme
are the found ones and stand in the message, and its span is that of the fault.  The tokens before
it are viable, and whatever the fault says to have expected would have been viable as well.  With
the token itself they are no longer viable; if the fault is at the end, then the tokens are no
program.  Only if a statement starts with a name and no equals sign, then the name is described, and
the tokens cease to be viable after it. -/
theorem Tree.blames_first_of_ofTokens :
    (∀ tokens fault, Token.NumeralsDenote (Token.beforeEnd tokens) →
      Tree.ofTokens tokens = .error fault →
      ∃ index complaint expected,
        fault.Describes (Token.beforeEnd tokens) index complaint expected ∧
          Grammar.Blames ((Token.beforeEnd tokens).map Token.kind) index complaint expected) ∧
    ∀ source scan, Token.scan source = .ok scan →
      Token.NumeralsDenote (Token.beforeEnd scan.tokens) := by
  refine ⟨fun tokens fault denote refused => ?_, fun source scan => Token.numeralsDenote_of_scan⟩
  obtain ⟨before, after, reader, breaksOff⟩ := Token.exists_breaksOff_of_ofTokens denote refused
  by_cases afterName : ∃ name, reader.place = .afterName name
  · obtain ⟨name, place_eq⟩ := afterName
    exact breaksOff.blames_name place_eq
  · have notAfterName : ∀ name, reader.place ≠ .afterName name := not_exists.mp afterName
    exact breaksOff.blames_next notAfterName (Token.kind_ne_of_mem_beforeEnd tokens)

/-- Two names in a row.  The fault is about the first one, although a program may start with it. -/
theorem Tree.blames_first_of_ofTokens_names :
    let tokens : List Token := [⟨.name, "x", ⟨0, 1⟩⟩, ⟨.name, "y", ⟨2, 3⟩⟩]
    let fault := Complaint.statement.about ⟨.name, "x", ⟨0, 1⟩⟩
    Token.NumeralsDenote (Token.beforeEnd tokens) ∧ Tree.ofTokens tokens = .error fault ∧
      Grammar.Viable [.name] ∧ ¬ Grammar.Viable [.name, .name] := by
  intro tokens fault
  have denote : Token.NumeralsDenote (Token.beforeEnd tokens) := by
    intro token member isNumber
    rcases List.mem_pair.mp member with rfl | rfl
    · cases isNumber
    · cases isNumber
  have refused : Tree.ofTokens tokens = .error fault := rfl
  obtain ⟨blames, -⟩ := Tree.blames_first_of_ofTokens
  obtain ⟨index, complaint, expected, describes, blames⟩ := blames tokens fault denote refused
  have index_eq : index = 0 := by
    rcases Nat.le_iff_lt_or_eq.mp describes.index_le with inside | atEnd
    · have here := describes.of_token _ (List.getElem?_eq_getElem inside)
      obtain rfl | rfl : index = 0 ∨ index = 1 := by
        have bound : index < 2 := inside
        omega
      · rfl
      · cases here.2.2
    · cases (describes.of_end atEnd).1
  subst index_eq
  obtain ⟨text_eq, -⟩ := Cause.unexpectedToken.inj (describes.of_token _ rfl).1
  have after := blames.breaks_after_name ⟨text_eq.symm, rfl⟩
  exact ⟨denote, refused, after.1, after.2⟩

end PrintLang
