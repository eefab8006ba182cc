import Mathlib.Algebra.Ring.Parity
import PrintLang.Proofs.Continuation
import PrintLang.Proofs.Stopping
import PrintLang.Proofs.Token.Unusable

/-!
# Quotes that are left open

Whether the last quote of a text is left open can be told by counting its quotes, without reading
any token.  Every other lexeme has an even number of them, whatever it consists of, so the number of
all quotes is odd just if the text ends within quotes.

A text that ends in this way is no program.  Its last token is what stands behind the open quote,
while the last token of a program is a semicolon.  So the warning about an open quote is never
followed by anything that the text does, and it is the only warning that there is.

## Main Definitions

* `IsLastQuote` — the position of the last quote of a text

## Main Statements

* `Lexes.exists_of_openQuote` — a text that ends within quotes
* `Token.openQuote_eq_some_iff` — the quote that a scan finds open
* `Reads.even_count` — the quotes of a program
* `Token.warns_iff_odd` — an open quote is noticed, and nothing is run
-/

namespace PrintLang

/-! ## The last quote of a text -/

/-- There is a quote at a position of a text, and none after it. -/
structure IsLastQuote (text : List Char) (start : Nat) : Prop where
  here : text[start]? = some '"'
  noLater : '"' ∉ text.drop (start + 1)

namespace IsLastQuote

theorem of_append {before content : List Char} (noQuote : '"' ∉ content) :
    IsLastQuote (before ++ '"' :: content) before.length := by
  constructor
  · simp
  · rwa [List.drop_length_add_append, List.drop_one, List.tail_cons]

variable {text : List Char} {start other : Nat}

/-- No quote stands behind the last one. -/
theorem le_of_getElem? (isLast : IsLastQuote text start) (quote : text[other]? = some '"') :
    other ≤ start := by
  by_contra later
  apply isLast.noLater
  apply List.mem_of_getElem? (i := other - (start + 1))
  rw [List.getElem?_drop, Nat.add_sub_cancel' (by omega)]
  exact quote

theorem unique (isLast : IsLastQuote text start) (otherIsLast : IsLastQuote text other) :
    start = other :=
  Nat.le_antisymm (otherIsLast.le_of_getElem? isLast.here) (isLast.le_of_getElem? otherIsLast.here)

end IsLastQuote

/-! ## Texts that end within quotes -/

/-- Behind a quote that is left open there is no other one, and all that stands there is the last
token. -/
theorem Lexes.exists_of_openQuote {position start : Nat} {text : List Char} {tokens : List Token}
    (lexes : Lexes position text tokens (.openQuote start)) :
    ∃ before content front, text = before ++ '"' :: content ∧ '"' ∉ content ∧
      start = position + before.length ∧
      tokens = front ++ [⟨.text, String.ofList content, ⟨start, position + text.length⟩⟩] := by
  generalize closing_eq : Closing.openQuote start = closing at lexes
  induction lexes with
  | complete | unusable => cases closing_eq
  | @openQuote position content noQuote =>
    cases closing_eq
    exact ⟨[], content, [], rfl, noQuote, rfl, rfl⟩
  | @lexeme position consumed rest made tokens closing first others ih =>
    obtain ⟨before, content, front, rfl, noQuote, start_eq, rfl⟩ := ih closing_eq
    refine ⟨consumed ++ before, content,
      Lexeme.tokens position (position + consumed.length) made ++ front,
      (List.append_assoc _ _ _).symm, noQuote, ?_, ?_⟩
    · rw [start_eq, List.length_append, Nat.add_assoc]
    · rw [Nat.add_assoc, ← List.length_append, List.append_assoc]

namespace Token

variable {source : String} {scan : Scan}

/-- A scan finds a quote open exactly if the number of quotes is odd, and this is the last one. -/
theorem openQuote_eq_some_iff (scans : Token.scan source = .ok scan) (start : Nat) :
    scan.openQuote = some start ↔
      Odd (source.toList.count '"') ∧ IsLastQuote source.toList start := by
  obtain ⟨tokens, closing, lexes, result⟩ := exists_lexes_of_scan scans
  have readable := Closing.readable_of_result result
  rw [← Nat.not_even_iff_odd, lexes.even_count_iff readable]
  cases closing with
  | complete =>
    cases result
    simp
  | openQuote quote =>
    cases result
    obtain ⟨before, content, front, text_eq, noQuote, quote_eq, -⟩ := lexes.exists_of_openQuote
    have isLast : IsLastQuote source.toList quote := by
      rw [text_eq, quote_eq, Nat.zero_add]
      exact .of_append noQuote
    constructor
    · intro same
      obtain rfl := Option.some.inj same
      exact ⟨nofun, isLast⟩
    · intro ⟨_, other⟩
      exact congrArg some (isLast.unique other)
  | unusable symbol position => exact absurd rfl (readable symbol position)

/-- The token of an open quote is the last one before the end, and it reaches to the end. -/
theorem exists_tokens_of_openQuote (scans : Token.scan source = .ok scan) {start : Nat}
    (isOpen : scan.openQuote = some start) :
    ∃ front, scan.tokens = front ++
      [⟨.text, String.ofList (source.toList.drop (start + 1)), ⟨start, source.length⟩⟩,
        ⟨.endOfInput, "", .atEnd source.length⟩] := by
  obtain ⟨tokens, closing, lexes, result⟩ := exists_lexes_of_scan scans
  cases closing with
  | complete =>
    cases result
    cases isOpen
  | openQuote quote =>
    cases result
    cases isOpen
    obtain ⟨before, content, front, text_eq, -, start_eq, rfl⟩ := lexes.exists_of_openQuote
    have content_eq : source.toList.drop (start + 1) = content := by
      rw [text_eq, start_eq, Nat.zero_add, List.drop_length_add_append]
      rfl
    refine ⟨front, ?_⟩
    rw [content_eq, Nat.zero_add, String.length_toList]
    exact List.append_assoc _ _ _
  | unusable => cases result

/-- There is one warning at most, and it is about an open quote. -/
theorem mem_warnings_iff {event : Event} :
    event ∈ warnings source ↔
      ∃ scan start, Token.scan source = .ok scan ∧ scan.openQuote = some start ∧
        event = .openQuote start := by
  rw [warnings]
  cases Token.scan source with
  | error fault => simp
  | ok scan => simp [eq_comm]

theorem length_warnings_le_one (source : String) : (warnings source).length ≤ 1 := by
  rw [warnings]
  cases Token.scan source with
  | error fault => simp
  | ok scan => cases scan.openQuote <;> simp

end Token

/-! ## No program ends within quotes -/

/-- A program has an even number of quotes, since it ends with a semicolon. -/
theorem Reads.even_count {source : String} {statements : List Tree}
    (reads : Reads source statements) : Even (source.toList.count '"') := by
  obtain ⟨tokens, read⟩ := reads.exists_tokens
  exact (read.lexes.even_count_iff nofun).mpr rfl

/-- A text that is no program fails before anything runs. -/
theorem Session.exists_early_fault {source : String}
    (noProgram : ∀ statements, ¬ Reads source statements) (session : Session) :
    ∃ after fault, session.runLine source = ⟨after, some fault⟩ ∧
      (fault.cause.stage = .lexical ∨ fault.cause.stage = .parse) := by
  unfold runLine
  cases scans : Token.scan source with
  | error fault =>
    obtain ⟨symbol, position, rfl, -⟩ := Token.exists_symbol_of_scan scans
    exact ⟨session, _, rfl, Or.inl rfl⟩
  | ok scan =>
    dsimp only
    cases accepted : Tree.ofTokens scan.tokens with
    | error fault => exact ⟨_, fault, rfl, Or.inr (Token.refused_of_ofTokens accepted).stage_eq⟩
    | ok statements => exact absurd ⟨scan, scans, accepted⟩ (noProgram statements)

namespace Token

/-- **An open quote is noticed exactly if the number of quotes is odd, and such a text is never
run.**

A line and a script warn of what their text gives reason for and of nothing else.  That is at most
one warning; it says where the last quote stands, which is where the last token starts.  A line with
an odd number of quotes fails before it binds or writes anything. -/
theorem warns_iff_odd (source : String) :
    ((∀ session : Session,
      (session.runLine source).session.warnings = session.warnings ++ warnings source) ∧
      (∀ dump sink, (Script.run dump source sink).session.warnings = warnings source) ∧
      (warnings source).length ≤ 1 ∧
      ∀ event ∈ warnings source, ∃ start, event = .openQuote start ∧
        event.message = "unterminated string literal runs to end of input" ∧
        event.fields = [("start", .count start)]) ∧
    (∀ start, .openQuote start ∈ warnings source ↔
      (∃ scan, Token.scan source = .ok scan) ∧ Odd (source.toList.count '"') ∧
        IsLastQuote source.toList start) ∧
    (∀ scan start, Token.scan source = .ok scan → .openQuote start ∈ warnings source →
      ∃ front, scan.tokens = front ++
        [⟨.text, String.ofList (source.toList.drop (start + 1)), ⟨start, source.length⟩⟩,
          ⟨.endOfInput, "", .atEnd source.length⟩]) ∧
    (Odd (source.toList.count '"') → ∀ session : Session,
      ∃ after fault, session.runLine source = ⟨after, some fault⟩ ∧
        (fault.cause.stage = .lexical ∨ fault.cause.stage = .parse) ∧
        after.SameEffects session) := by
  refine ⟨⟨fun session => session.warnings_runLine source, fun dump sink =>
    Script.warnings_run dump source sink, length_warnings_le_one source, ?_⟩, ?_, ?_, ?_⟩
  · intro event member
    obtain ⟨scan, start, -, -, rfl⟩ := mem_warnings_iff.mp member
    exact ⟨start, rfl, rfl, rfl⟩
  · intro start
    rw [mem_warnings_iff]
    constructor
    · rintro ⟨scan, _, scans, isOpen, same⟩
      obtain rfl := Event.openQuote.inj same
      exact ⟨⟨scan, scans⟩, (openQuote_eq_some_iff scans start).mp isOpen⟩
    · rintro ⟨⟨scan, scans⟩, odd, isLast⟩
      exact ⟨scan, start, scans, (openQuote_eq_some_iff scans start).mpr ⟨odd, isLast⟩, rfl⟩
  · intro scan start scans member
    obtain ⟨other, _, otherScans, isOpen, same⟩ := mem_warnings_iff.mp member
    obtain rfl := Event.openQuote.inj same
    obtain rfl := Except.ok.inj (scans.symm.trans otherScans)
    exact exists_tokens_of_openQuote scans isOpen
  · intro odd session
    have noProgram (statements : List Tree) : ¬ Reads source statements := fun reads =>
      Nat.not_even_iff_odd.mpr odd reads.even_count
    obtain ⟨after, fault, run_eq, early⟩ := session.exists_early_fault noProgram
    refine ⟨after, fault, run_eq, early, Session.sameEffects_of_runLine run_eq ?_⟩
    rcases early with early | early
    · simp [early]
    · simp [early]

/-- Two quotes that belong together and one that is open, with a semicolon behind it. -/
theorem warns_iff_odd_semicolon :
    let source := "x = \"é\" + \"b;"
    Odd (source.toList.count '"') ∧ .openQuote 10 ∈ warnings source ∧
      (∃ scan front, Token.scan source = .ok scan ∧
        scan.tokens = front ++ [⟨.text, "b;", ⟨10, 13⟩⟩, ⟨.endOfInput, "", ⟨12, 13⟩⟩]) ∧
      ∀ session : Session, ∃ after fault, session.runLine source = ⟨after, some fault⟩ ∧
        (fault.cause.stage = .lexical ∨ fault.cause.stage = .parse) ∧
        after.SameEffects session := by
  intro source
  have odd : Odd (source.toList.count '"') := by decide
  have exists_scan : ∃ scan, Token.scan "x = \"é\" + \"b;" = .ok scan := ⟨_, rfl⟩
  obtain ⟨-, warns_iff, tokens_eq, fails⟩ := warns_iff_odd source
  have warned : .openQuote 10 ∈ warnings source :=
    (warns_iff 10).mpr ⟨exists_scan, odd, by decide, by decide⟩
  obtain ⟨scan, scans⟩ := exists_scan
  obtain ⟨front, front_eq⟩ := tokens_eq scan 10 scans warned
  have content_eq : String.ofList (source.toList.drop (10 + 1)) = "b;" := by decide
  have length_eq : source.length = 13 := by decide
  rw [content_eq, length_eq] at front_eq
  exact ⟨odd, warned, ⟨scan, front, scans, front_eq⟩, fails odd⟩

end Token

end PrintLang
