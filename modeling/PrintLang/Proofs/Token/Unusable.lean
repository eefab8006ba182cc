import Mathlib.Algebra.Group.Nat.Even
import PrintLang.Proofs.Token.Part
import PrintLang.Proofs.Token.Rendering
import PrintLang.Script

/-!
# Unusable characters

A scan fails at the first character that cannot be used where it stands.  Three things decide on
this: the character itself, whether it stands between quotes, and whether a word goes on with it.
The last is possible for a digit outside the ASCII range, with which nothing starts.

None of the three looks beyond the character.  Whether it stands between quotes is told by the
number of quotes before it, since every lexeme but an open quote has an even number of them.

## Main Definitions

* `Token.beginning` — a text up to a position
* `Token.Unusable` — a character of a text that cannot be used where it stands

## Main Statements

* `Lexes.even_count_iff` — no quote is open after an even number of them
* `Lexes.exists_of_unusable`, `Lexes.before_unusable` — what stands before an unusable character
* `Token.scan_fails_iff` — a scan fails exactly at an unusable character
-/

namespace PrintLang

/-! ## Characters -/

theorem IsUnusable.ne_underscore {c : Char} (isUnusable : IsUnusable c) : c ≠ '_' := by
  rintro rfl
  cases isUnusable.notWordStart

/-- The characters with which no lexeme starts, by their list and their classes. -/
theorem isUnusable_iff {c : Char} :
    IsUnusable c ↔
      c ∉ punctuation ++ ['_'] ∧ c.isDigit = false ∧ isAlphabetic c = false := by
  constructor
  · intro isUnusable
    obtain ⟨notAlphabetic, -⟩ := Bool.or_eq_false_iff.mp isUnusable.notWordStart
    refine ⟨fun member => ?_, isUnusable.notDigit, notAlphabetic⟩
    rcases List.mem_append.mp member with member | isUnderscore
    · have all : punctuation.all (fun c =>
          (TokenKind.ofSign? c).isSome || isSeparator c || c == '"') = true := by decide
      have used := List.all_eq_true.mp all c member
      simp [isUnusable.notSign, isUnusable.notSeparator, isUnusable.notQuote] at used
    · exact isUnusable.ne_underscore (List.mem_singleton.mp isUnderscore)
  · rintro ⟨notMember, notDigit, notAlphabetic⟩
    obtain ⟨notMember, notUnderscore⟩ := not_or.mp (mt List.mem_append.mpr notMember)
    obtain ⟨notSign, notSeparator, notQuote⟩ := of_not_mem_punctuation notMember
    refine ⟨notSign, notSeparator, notQuote, notDigit, ?_⟩
    rw [isWordStart, notAlphabetic, Bool.false_or]
    exact beq_eq_false_iff_ne.mpr (mt List.mem_singleton.mpr notUnderscore)

/-- Of the characters with which no lexeme starts, words go on with letters and digits. -/
theorem IsUnusable.isWordPart_eq {c : Char} (isUnusable : IsUnusable c) :
    isWordPart c = (isAlphabetic c || isNumeric c) := by
  rw [isWordPart, beq_false_of_ne isUnusable.ne_underscore, Bool.or_false]

/-! ## Quotes -/

/-- Only texts have quotes, and a text has two. -/
theorem Lexeme.even_count {consumed rest : List Char} {made : Option (TokenKind × String)}
    (lexeme : Lexeme consumed rest made) : Even (consumed.count '"') := by
  have even_of_notMem {chars : List Char} (noQuote : '"' ∉ chars) : Even (chars.count '"') := by
    rw [List.count_eq_zero_of_not_mem noQuote]
    exact Even.zero
  cases lexeme with
  | separator separates =>
    refine even_of_notMem fun member => ?_
    obtain rfl := List.mem_singleton.mp member
    cases separates
  | sign isSign =>
    refine even_of_notMem fun member => ?_
    obtain rfl := List.mem_singleton.mp member
    cases isSign
  | number isDigits =>
    refine even_of_notMem fun member => ?_
    cases isDigits.2 _ member
  | word isWord =>
    obtain ⟨first, more, rfl, startsWord, parts⟩ := isWord
    have isQuote : isWordPart '"' = false := isWordPart_eq_false_of_mem (by decide)
    refine even_of_notMem fun member => ?_
    rcases List.mem_cons.mp member with rfl | member
    · rw [isWordPart_of_isWordStart startsWord] at isQuote
      cases isQuote
    · rw [parts _ member] at isQuote
      cases isQuote
  | text noQuote =>
    rw [List.count_append, List.count_cons_self, List.count_eq_zero_of_not_mem noQuote]
    exact ⟨1, rfl⟩

/-- If a text goes on to its end, its last quote is open just if the number of its quotes is
odd. -/
theorem Lexes.even_count_iff {position : Nat} {text : List Char} {tokens : List Token}
    {closing : Closing} (lexes : Lexes position text tokens closing)
    (readable : closing.Readable) : Even (text.count '"') ↔ closing = .complete := by
  induction lexes with
  | complete => exact iff_of_true Even.zero rfl
  | openQuote noQuote =>
    rw [List.count_cons_self, List.count_eq_zero_of_not_mem noQuote]
    exact iff_of_false Nat.not_even_one nofun
  | unusable => exact absurd rfl (readable _ _)
  | lexeme first others ih =>
    rw [List.count_append, Nat.even_add, iff_true_left first.even_count]
    exact ih readable

/-! ## What stands before -/

/-- Before an unusable character there are complete lexemes, and no word that reaches to it goes
on with it. -/
theorem Lexes.exists_of_unusable {start position : Nat} {text : List Char} {tokens : List Token}
    {symbol : Char} (lexes : Lexes start text tokens (.unusable symbol position)) :
    ∃ before after, text = before ++ symbol :: after ∧ position = start + before.length ∧
      Lexes start before tokens .complete ∧ IsUnusable symbol ∧
      ∀ token ∈ tokens, token.kind.isWord = true → token.span.stop = position →
        isWordPart symbol = false := by
  generalize closing_eq : Closing.unusable symbol position = closing at lexes
  induction lexes with
  | complete | openQuote => cases closing_eq
  | unusable isUnusable =>
    cases closing_eq
    exact ⟨[], _, rfl, rfl, .complete, isUnusable, nofun⟩
  | @lexeme start consumed rest made tokens closing first others ih =>
    obtain ⟨before, after, rfl, position_eq, lexes, isUnusable, stops⟩ := ih closing_eq
    refine ⟨consumed ++ before, after, (List.append_assoc _ _ _).symm, ?_,
      .lexeme first.shorten lexes, isUnusable, fun token member isWord stop_eq => ?_⟩
    · rw [position_eq, List.length_append, Nat.add_assoc]
    rcases List.mem_append.mp member with isFirst | isLater
    · cases made with
      | none => cases isFirst
      | some word =>
        obtain rfl := List.mem_singleton.mp isFirst
        -- The first token reaches to the character only if nothing stands between them.
        have nothing : before = [] := by
          rw [← List.length_eq_zero_iff]
          have := stop_eq.trans position_eq
          dsimp only at this
          omega
        subst nothing
        exact (TokenKind.stopsBefore_cons.mp first.stopsBefore).1 isWord
    · exact stops token isLater isWord stop_eq

/-- A character with which no lexeme starts is unusable behind complete lexemes, unless a word
reaches to it and goes on with it. -/
theorem Lexes.before_unusable {start : Nat} {before : List Char} {tokens : List Token}
    {symbol : Char} (lexes : Lexes start before tokens .complete) (isUnusable : IsUnusable symbol)
    (stops : ∀ token ∈ tokens, token.kind.isWord = true →
      token.span.stop = start + before.length → isWordPart symbol = false)
    (after : List Char) :
    Lexes start (before ++ symbol :: after) tokens
      (.unusable symbol (start + before.length)) := by
  rw [← List.append_nil tokens]
  refine lexes.append_of_reaching (fun token isLast stop_eq => ?_) (.unusable isUnusable)
  refine TokenKind.stopsBefore_cons.mpr ⟨fun isWord => ?_, fun _ => isUnusable.notDigit⟩
  exact stops token (List.mem_of_getLast? isLast) isWord stop_eq

/-! ## Failing scans -/

namespace Token

/-- A text up to a position. -/
def beginning (source : String) (position : Nat) : String :=
  String.ofList (source.toList.take position)

/-- A character of a text that cannot be used where it stands.  What stands before it can be
scanned and has no open quote.  The character separates nothing and is no token, it starts neither a
text nor a number nor a word, and no word that reaches to it goes on with it. -/
structure Unusable (source : String) (symbol : Char) (position : Nat) : Prop where
  here : source.toList[position]? = some symbol
  closed : Even ((source.toList.take position).count '"')
  notMember : symbol ∉ ['=', '+', '-', '*', '/', ';', ' ', '\t', '\r', '\n', '"', '_']
  notDigit : symbol.isDigit = false
  notAlphabetic : isAlphabetic symbol = false
  before : ∃ scan, Token.scan (beginning source position) = .ok scan ∧
    ¬ ((isAlphabetic symbol || isNumeric symbol) = true ∧
      ∃ token ∈ scan.tokens, token.kind.isWord = true ∧ token.span.stop = position)

theorem toList_beginning (source : String) (position : Nat) :
    (beginning source position).toList = source.toList.take position :=
  String.toList_ofList

namespace Unusable

variable {source : String} {symbol : Char} {position : Nat}

theorem isUnusable (unusable : Unusable source symbol position) : IsUnusable symbol :=
  isUnusable_iff.mpr ⟨unusable.notMember, unusable.notDigit, unusable.notAlphabetic⟩

/-- A scan fails at an unusable character, whatever follows it. -/
theorem scan_eq (unusable : Unusable source symbol position) (rest : List Char) :
    Token.scan (String.ofList (source.toList.take position ++ symbol :: rest)) =
      .error (.unknownCharacter symbol position) := by
  have isUnusable := unusable.isUnusable
  obtain ⟨inside, -⟩ := List.getElem?_eq_some_iff.mp unusable.here
  have length_eq : (source.toList.take position).length = position :=
    List.length_take_of_le (Nat.le_of_lt inside)
  obtain ⟨scan, scans, noWord⟩ := unusable.before
  obtain ⟨tokens, closing, lexes, readable, tokens_eq⟩ := exists_readable_of_scan scans
  rw [toList_beginning] at lexes
  obtain rfl := (lexes.even_count_iff readable).mp unusable.closed
  have stops : ∀ token ∈ tokens, token.kind.isWord = true →
      token.span.stop = 0 + (source.toList.take position).length → isWordPart symbol = false := by
    intro token member isWord stop_eq
    rw [Nat.zero_add, length_eq] at stop_eq
    rw [isUnusable.isWordPart_eq, ← Bool.not_eq_true]
    intro goesOn
    have isScanned : token ∈ scan.tokens := tokens_eq ▸ List.mem_append_left _ member
    exact noWord ⟨goesOn, token, isScanned, isWord, stop_eq⟩
  have fails := lexes.before_unusable isUnusable stops rest
  rw [← String.toList_ofList (l := source.toList.take position ++ symbol :: rest)] at fails
  rw [fails.scan_eq, Nat.zero_add, length_eq]
  rfl

/-- The text in which an unusable character stands. -/
theorem source_eq (unusable : Unusable source symbol position) :
    source = String.ofList
      (source.toList.take position ++ symbol :: source.toList.drop (position + 1)) := by
  obtain ⟨inside, here⟩ := List.getElem?_eq_some_iff.mp unusable.here
  rw [← here, ← List.drop_eq_getElem_cons inside, List.take_append_drop, String.ofList_toList]

end Unusable

/-- A scan fails at an unusable character only. -/
theorem unusable_of_scan {source : String} {symbol : Char} {position : Nat}
    (fails : Token.scan source = .error (.unknownCharacter symbol position)) :
    Unusable source symbol position := by
  obtain ⟨tokens, closing, all, result⟩ := exists_lexes_of_scan fails
  cases closing with
  | complete | openQuote => cases result
  | unusable =>
    cases result
    obtain ⟨before, after, source_eq, position_eq, lexes, isUnusable, stops⟩ :=
      all.exists_of_unusable
    rw [Nat.zero_add] at position_eq
    subst position_eq
    obtain ⟨notMember, notDigit, notAlphabetic⟩ := isUnusable_iff.mp isUnusable
    have take_eq : source.toList.take before.length = before := by
      rw [source_eq, List.take_left]
    have beginning_eq : (beginning source before.length).toList = before := by
      rw [toList_beginning, take_eq]
    have readable : Closing.complete.Readable := fun _ _ => nofun
    constructor
    case here =>
      rw [source_eq, List.getElem?_append_right (Nat.le_refl _), Nat.sub_self]
      rfl
    case closed =>
      rw [take_eq]
      exact (lexes.even_count_iff readable).mpr rfl
    case notMember => exact notMember
    case notDigit => exact notDigit
    case notAlphabetic => exact notAlphabetic
    case before =>
      rw [← beginning_eq] at lexes
      refine ⟨_, lexes.scan_eq, ?_⟩
      rintro ⟨goesOn, token, member, isWord, stop_eq⟩
      rcases List.mem_append.mp member with isScanned | isEnd
      · rw [← isUnusable.isWordPart_eq, stops token isScanned isWord stop_eq] at goesOn
        cases goesOn
      · obtain rfl := List.mem_singleton.mp isEnd
        cases isWord

/-- **A scan fails exactly at the first character that cannot be used where it stands.**

Nothing after the character matters: the same beginning with the same character fails in the same
way, whatever follows.  Neither a line nor a script logs anything before it fails, so there is no
warning about an open quote. -/
theorem scan_fails_iff (source : String) (symbol : Char) (position : Nat) :
    (Token.scan source = .error (.unknownCharacter symbol position) ↔
      Unusable source symbol position) ∧
    (Unusable source symbol position →
      (∀ rest, Token.scan (String.ofList (source.toList.take position ++ symbol :: rest)) =
        .error (.unknownCharacter symbol position)) ∧
      (∀ session : Session,
        session.runLine source = ⟨session, some (.unknownCharacter symbol position)⟩) ∧
      ∀ dump sink, Script.run dump source sink =
        ⟨Session.fresh sink, some (.unknownCharacter symbol position)⟩) := by
  have fails (unusable : Unusable source symbol position) :
      Token.scan source = .error (.unknownCharacter symbol position) := by
    rw [unusable.source_eq]
    exact unusable.scan_eq _
  refine ⟨⟨unusable_of_scan, fails⟩, fun unusable => ⟨unusable.scan_eq, ?_, ?_⟩⟩
  · intro session
    rw [Session.runLine, fails unusable]
  · intro dump sink
    rw [Script.run, fails unusable]

/-- A digit outside the ASCII range goes on with a word, but not with a number.  Between quotes
there may be any character. -/
theorem scan_fails_iff_superscript :
    Unusable "x² = \"#\" + 2²;" '²' 12 ∧
      (∀ rest, Token.scan (String.ofList ("x² = \"#\" + 2".toList ++ '²' :: rest)) =
        .error (.unknownCharacter '²' 12)) ∧
      ∀ session : Session, session.runLine "x² = \"#\" + 2²;" =
        ⟨session, some (.unknownCharacter '²' 12)⟩ := by
  have unusable : Unusable "x² = \"#\" + 2²;" '²' 12 := by
    refine ⟨by decide, by decide, by decide, by decide, by decide +kernel, _, rfl, ?_⟩
    decide +kernel
  have before_eq : "x² = \"#\" + 2²;".toList.take 12 = "x² = \"#\" + 2".toList := by decide
  obtain ⟨-, whateverFollows⟩ := scan_fails_iff "x² = \"#\" + 2²;" '²' 12
  obtain ⟨scan_eq, line_eq, -⟩ := whateverFollows unusable
  rw [before_eq] at scan_eq
  exact ⟨unusable, scan_eq, line_eq⟩

end Token

end PrintLang
