import PrintLang.Proofs.Grammar.Part
import PrintLang.Proofs.Refusal
import PrintLang.Proofs.Token.Concatenation

/-!
# Rendered tokens

The tokens of a source text can be written down again, one after the other, each as it is spelled
and with separators between neighbours.  Scanning what has been written gives the same words back,
provided that a separator stands wherever the next token could lengthen the one before it: between
two words, after a word before a number, and between two numbers.  Everywhere else the separators
may be left out.

Both directions rest on one observation.  A token stays what it is exactly if the text behind it
does not go on with it, and how a text starts is told by the kind of its first token.

## Main Definitions

* `Token.spelling` — the characters of a token, with the quotes of a text
* `TokenKind.Fuses` — the kinds of neighbours that are read as one without a separator
* `Token.render` — tokens one after the other, with characters between neighbours
* `Token.KeptApart` — no two neighbours are read as one
* `Token.ReadsAs` — what a text says, wherever it stands

## Main Statements

* `Lexeme.stopsBefore`, `Lexeme.followedBy` — a token stays what it is if nothing lengthens it
* `TokenKind.stopsBefore_iff` — the kinds of two neighbours decide whether one lengthens the other
* `Token.scan_render` — scanning rendered tokens gives the tokens back
-/

namespace PrintLang

/-! ## Characters and kinds -/

theorem isWordPart_eq_false_of_mem {c : Char} (member : c ∈ punctuation) :
    isWordPart c = false := by
  have all : punctuation.all (fun c => isWordPart c = false) = true := by decide
  exact of_decide_eq_true (List.all_eq_true.mp all c member)

/-- Words go on with digits. -/
theorem isWordPart_of_isDigit {c : Char} (isDigit : c.isDigit = true) : isWordPart c = true := by
  obtain ⟨ge, le⟩ : 0x30 ≤ c.toNat ∧ c.toNat ≤ 0x39 := Char.isDigit_iff_toNat.mp isDigit
  have inFirst {rest : List (Nat × Nat)} : inRanges ((0x30, 0x39) :: rest) c.toNat = true := by
    rw [inRanges, if_neg (Nat.not_lt.mpr ge), if_pos le]
  have numeric : isNumeric c = true := inFirst
  rw [isWordPart, numeric, Bool.or_true, Bool.true_or]

theorem isWordPart_of_isWordStart {c : Char} (startsWord : isWordStart c = true) :
    isWordPart c = true := by
  rw [isWordStart, Bool.or_eq_true] at startsWord
  rw [isWordPart, Bool.or_eq_true, Bool.or_eq_true]
  exact startsWord.imp_left Or.inl

theorem TokenKind.ne_number_of_isWord {kind : TokenKind} (isWord : kind.isWord = true) :
    kind ≠ .number := by
  rintro rfl
  cases isWord

/-- A sign is neither a word nor a number. -/
theorem TokenKind.of_ofSign?_eq_some {c : Char} {kind : TokenKind}
    (isSign : ofSign? c = some kind) : kind.isWord = false ∧ kind ≠ .number := by
  unfold ofSign? at isSign
  split at isSign
  case h_7 => cases isSign
  all_goals
    obtain rfl := Option.some.inj isSign
    exact ⟨rfl, by decide⟩

/-! ## Spellings -/

namespace Token

/-- The characters of a token with the given kind and lexeme.  The lexeme of a text leaves out
the quotes. -/
def spelling (word : TokenKind × String) : List Char :=
  if word.1 = .text then '"' :: word.2.toList ++ ['"'] else word.2.toList

/-- Some text has a token with this kind and lexeme. -/
def IsSpelled (word : TokenKind × String) : Prop :=
  ∃ rest, Lexeme (spelling word) rest (some word)

end Token

section Lexemes

variable {consumed rest other : List Char} {word : TokenKind × String}

theorem Lexeme.consumed_eq_spelling (made : Lexeme consumed rest (some word)) :
    consumed = Token.spelling word := by
  rcases made.consumed_eq with ⟨notText, same⟩ | ⟨isText, -, same⟩
  · rw [same, Token.spelling, if_neg notText]
  · rw [same, Token.spelling, if_pos isText]

/-- Nothing that follows a token lengthens it. -/
theorem Lexeme.stopsBefore (made : Lexeme consumed rest (some word)) :
    word.1.StopsBefore rest := by
  cases made with
  | sign isSign =>
    obtain ⟨notWord, notNumber⟩ := TokenKind.of_ofSign?_eq_some isSign
    exact ⟨fun isWord => absurd isWord (by simp [notWord]),
      fun isNumber => absurd isNumber notNumber⟩
  | number _ stops => exact ⟨nofun, fun _ => stops⟩
  | word _ stops =>
    have isWord := TokenKind.isWord_ofWord (String.ofList consumed)
    exact ⟨fun _ => stops, fun isNumber => absurd isNumber (TokenKind.ne_number_of_isWord isWord)⟩
  | text => exact ⟨nofun, nofun⟩

/-- A token stays what it is if something else follows that does not lengthen it. -/
theorem Lexeme.followedBy (made : Lexeme consumed rest (some word))
    (stops : word.1.StopsBefore other) : Lexeme consumed other (some word) := by
  cases made with
  | sign isSign => exact .sign isSign
  | number isDigits => exact .number isDigits (stops.number rfl)
  | word isWord => exact .word isWord (stops.word (TokenKind.isWord_ofWord _))
  | text noQuote => exact .text noQuote

/-- The first character of a token is no separator, and tells whether the token would lengthen a
word or a number before it. -/
theorem Lexeme.exists_first (made : Lexeme consumed rest (some word)) :
    ∃ c more, consumed = c :: more ∧ isSeparator c = false ∧
      (isWordPart c = true ↔ word.1.isWord = true ∨ word.1 = .number) ∧
      (c.isDigit = true ↔ word.1 = .number) := by
  cases made with
  | @sign c _ kind isSign =>
    have member := mem_of_ofSign?_eq_some isSign
    obtain ⟨notWord, notNumber⟩ := TokenKind.of_ofSign?_eq_some isSign
    have notSeparator : isSeparator c = false := by
      by_contra separates
      rw [(mem_of_isSeparator (by simpa using separates)).2] at isSign
      cases isSign
    refine ⟨c, [], rfl, notSeparator, ?_, ?_⟩
    · rw [isWordPart_eq_false_of_mem member]
      exact iff_of_false Bool.false_ne_true (by simp [notWord, notNumber])
    · rw [(class_eq_false_of_mem member).2]
      exact iff_of_false Bool.false_ne_true notNumber
  | number isDigits =>
    obtain ⟨nonempty, members⟩ := isDigits
    obtain ⟨c, more, rfl⟩ := List.exists_cons_of_ne_nil nonempty
    have isDigit := members c List.mem_cons_self
    have notSeparator := (of_not_mem_punctuation (not_mem_of_isDigit isDigit)).2.1
    exact ⟨c, more, rfl, notSeparator, iff_of_true (isWordPart_of_isDigit isDigit) (Or.inr rfl),
      iff_of_true isDigit rfl⟩
  | word isWord =>
    have isWord_eq := TokenKind.isWord_ofWord (String.ofList consumed)
    obtain ⟨c, more, rfl, startsWord, -⟩ := isWord
    have notSeparator := (of_not_mem_punctuation (not_mem_of_isWordStart startsWord)).2.1
    refine ⟨c, more, rfl, notSeparator, ?_, ?_⟩
    · exact iff_of_true (isWordPart_of_isWordStart startsWord) (Or.inl isWord_eq)
    · rw [isDigit_eq_false_of_isWordStart startsWord]
      exact iff_of_false Bool.false_ne_true (TokenKind.ne_number_of_isWord isWord_eq)
  | @text content =>
    refine ⟨'"', content ++ ['"'], rfl, rfl, ?_, ?_⟩
    · rw [isWordPart_eq_false_of_mem (by decide)]
      exact iff_of_false Bool.false_ne_true (by simp [TokenKind.isWord])
    · exact iff_of_false (by decide) (by simp)

end Lexemes

/-- The tokens of a text are spelled by it, and an open quote could be closed. -/
theorem Lexes.isSpelled {position : Nat} {text : List Char} {tokens : List Token}
    {closing : Closing} (lexes : Lexes position text tokens closing) :
    ∀ token ∈ tokens, Token.IsSpelled token.word := by
  induction lexes with
  | complete | unusable => exact fun _ member => nomatch member
  | @openQuote _ content noQuote =>
    refine List.forall_mem_singleton.mpr ⟨[], ?_⟩
    have closed : Lexeme ('"' :: content ++ ['"']) [] (some (.text, String.ofList content)) :=
      .text noQuote
    exact closed.consumed_eq_spelling ▸ closed
  | @lexeme _ consumed rest made _ _ first _ ih =>
    cases made with
    | none => exact ih
    | some word =>
      exact List.forall_mem_cons.mpr ⟨⟨rest, first.consumed_eq_spelling ▸ first⟩, ih⟩

/-- A token that is no text is spelled as its kind says. -/
theorem Token.isSpelled_iff {kind : TokenKind} {lexeme : String} (notText : kind ≠ .text) :
    IsSpelled (kind, lexeme) ↔ kind.Spells lexeme.toList := by
  rw [IsSpelled, spelling, if_neg notText]
  constructor
  · rintro ⟨rest, made⟩
    exact made.spells
  · intro spells
    have nothing (class_ : Char → Bool) : Stops class_ [] := fun _ => nofun
    rcases spells.cases notText with isWord | isDigits | ⟨c, lexeme_eq, isSign⟩
    · have made := Lexeme.word isWord (nothing _)
      rw [(TokenKind.spells_ofWord isWord).unique spells, String.ofList_toList] at made
      exact ⟨[], made⟩
    · have isNumber : TokenKind.number.Spells lexeme.toList := isDigits
      have made := Lexeme.number isDigits (nothing _)
      rw [isNumber.unique spells, String.ofList_toList] at made
      exact ⟨[], made⟩
    · obtain rfl : lexeme = String.singleton c := by
        rw [← String.toList_inj, lexeme_eq, String.toList_singleton]
      rw [lexeme_eq]
      exact ⟨[], .sign isSign⟩

/-- A text is spelled if it has no quote. -/
theorem Token.isSpelled_text_iff {lexeme : String} :
    IsSpelled (.text, lexeme) ↔ '"' ∉ lexeme.toList := by
  constructor
  · rintro ⟨rest, made⟩
    rcases made.consumed_eq with ⟨notText, -⟩ | ⟨-, noQuote, -⟩
    · exact absurd rfl notText
    · exact noQuote
  · intro noQuote
    have made : Lexeme _ [] _ := .text noQuote
    rw [String.ofList_toList] at made
    exact ⟨[], made⟩

/-! ## Neighbours -/

/-- Without anything between them, tokens of these kinds would be read as one: a word goes on with
words and numbers, and a number with numbers. -/
def TokenKind.Fuses (kind next : TokenKind) : Prop :=
  kind.isWord = true ∧ (next.isWord = true ∨ next = .number) ∨ kind = .number ∧ next = .number

theorem TokenKind.stopsBefore_cons {kind : TokenKind} {c : Char} {text : List Char} :
    kind.StopsBefore (c :: text) ↔
      (kind.isWord = true → isWordPart c = false) ∧ (kind = .number → c.isDigit = false) := by
  have stops_iff (class_ : Char → Bool) : Stops class_ (c :: text) ↔ class_ c = false := by
    simp [Stops]
  constructor
  · rintro ⟨word, number⟩
    exact ⟨fun isWord => (stops_iff _).mp (word isWord),
      fun isNumber => (stops_iff _).mp (number isNumber)⟩
  · rintro ⟨word, number⟩
    exact ⟨fun isWord => (stops_iff _).mpr (word isWord),
      fun isNumber => (stops_iff _).mpr (number isNumber)⟩

/-- Punctuation lengthens no token. -/
theorem TokenKind.stopsBefore_of_mem {kind : TokenKind} {c : Char} {text : List Char}
    (member : c ∈ punctuation) : kind.StopsBefore (c :: text) :=
  stopsBefore_cons.mpr
    ⟨fun _ => isWordPart_eq_false_of_mem member, fun _ => (class_eq_false_of_mem member).2⟩

/-- Nothing lengthens a token that is neither a word nor a number. -/
theorem TokenKind.stopsBefore_of_ne {kind : TokenKind} (notWord : kind.isWord ≠ true)
    (notNumber : kind ≠ .number) (text : List Char) : kind.StopsBefore text :=
  ⟨fun isWord => absurd isWord notWord, fun isNumber => absurd isNumber notNumber⟩

/-- A token is not lengthened by the next one, unless the two fuse and nothing separates them. -/
theorem TokenKind.stopsBefore_iff {kind : TokenKind} {gap more : List Char}
    {next : TokenKind × String} (separates : ∀ c ∈ gap, isSeparator c = true)
    (spelled : Token.IsSpelled next) :
    kind.StopsBefore (gap ++ (Token.spelling next ++ more)) ↔ (kind.Fuses next.1 → gap ≠ []) := by
  cases gap with
  | nil =>
    obtain ⟨rest, made⟩ := spelled
    obtain ⟨c, tail, spelling_eq, -, wordPart_iff, digit_iff⟩ := made.exists_first
    rw [spelling_eq, List.nil_append, List.cons_append, stopsBefore_cons, ← Bool.not_eq_true,
      ← Bool.not_eq_true, wordPart_iff, digit_iff]
    constructor
    · rintro ⟨word, number⟩ (⟨isWord, lengthens⟩ | ⟨isNumber, lengthens⟩)
      · exact absurd lengthens (word isWord)
      · exact absurd lengthens (number isNumber)
    · intro apart
      exact ⟨fun isWord lengthens => apart (Or.inl ⟨isWord, lengthens⟩) rfl,
        fun isNumber lengthens => apart (Or.inr ⟨isNumber, lengthens⟩) rfl⟩
  | cons c gap =>
    have member := (mem_of_isSeparator (separates c List.mem_cons_self)).1
    exact iff_of_true (stopsBefore_of_mem member) fun _ => List.cons_ne_nil _ _

/-! ## Rendering -/

namespace Token

/-- The spellings of tokens one after the other.  After the token with index `i` stands `gap i`,
except after the last one. -/
def render (gap : Nat → List Char) : List (TokenKind × String) → List Char
  | [] => []
  | [word] => spelling word
  | word :: next :: rest =>
    spelling word ++ (gap 0 ++ render (fun i => gap (i + 1)) (next :: rest))

/-- No two neighbours that would fuse stand next to each other with nothing between them. -/
def KeptApart (gap : Nat → List Char) (words : List (TokenKind × String)) : Prop :=
  ∀ i word next, words[i]? = some word → words[i + 1]? = some next → word.1.Fuses next.1 →
    gap i ≠ []

theorem keptApart_cons {gap : Nat → List Char} {word next : TokenKind × String}
    {rest : List (TokenKind × String)} :
    KeptApart gap (word :: next :: rest) ↔
      (word.1.Fuses next.1 → gap 0 ≠ []) ∧ KeptApart (fun i => gap (i + 1)) (next :: rest) := by
  constructor
  · intro apart
    exact ⟨apart 0 word next rfl rfl, fun i first second => apart (i + 1) first second⟩
  · rintro ⟨here, later⟩ i first second first_eq second_eq
    cases i with
    | zero =>
      obtain rfl := Option.some.inj first_eq
      obtain rfl := Option.some.inj second_eq
      exact here
    | succ i => exact later i first second first_eq second_eq

/-- A rendering starts with its first token. -/
theorem exists_render_cons (gap : Nat → List Char) (word : TokenKind × String)
    (rest : List (TokenKind × String)) :
    ∃ more, render gap (word :: rest) = spelling word ++ more := by
  cases rest with
  | nil => exact ⟨[], (List.append_nil _).symm⟩
  | cons next rest => exact ⟨_, rfl⟩

end Token

/-! ## Scanning what has been rendered -/

namespace Lexes

variable {position : Nat} {gap text : List Char} {tokens : List Token} {closing : Closing}

/-- Separators make no tokens. -/
theorem separators (separates : ∀ c ∈ gap, isSeparator c = true)
    (lexes : Lexes (position + gap.length) text tokens closing) :
    Lexes position (gap ++ text) tokens closing := by
  induction gap generalizing position with
  | nil => exact lexes
  | cons c gap ih =>
    obtain ⟨here, later⟩ := List.forall_mem_cons.mp separates
    rw [List.length_cons, Nat.add_comm gap.length, ← Nat.add_assoc] at lexes
    exact .lexeme (.separator here) (ih later lexes)

/-- A text that starts with a separator goes on behind it. -/
theorem tail_of_separator {c : Char} (separates : isSeparator c = true)
    (lexes : Lexes position (c :: text) tokens closing) :
    Lexes (position + 1) text tokens closing := by
  generalize text_eq : c :: text = all at lexes
  cases lexes with
  | complete => cases text_eq
  | openQuote =>
    obtain ⟨rfl, -⟩ := List.cons.inj text_eq
    cases separates
  | unusable isUnusable =>
    obtain ⟨rfl, -⟩ := List.cons.inj text_eq
    rw [isUnusable.notSeparator] at separates
    cases separates
  | @lexeme _ _ _ made _ _ first others =>
    cases made with
    | none =>
      cases first with
      | separator =>
        obtain ⟨rfl, rfl⟩ := List.cons.inj text_eq
        exact others
    | some word =>
      obtain ⟨_, more, rfl, notSeparator, -⟩ := first.exists_first
      obtain ⟨rfl, -⟩ := List.cons.inj text_eq
      rw [notSeparator] at separates
      cases separates

/-- So does a text that starts with any number of them. -/
theorem tail_of_separators (separates : ∀ c ∈ gap, isSeparator c = true)
    (lexes : Lexes position (gap ++ text) tokens closing) :
    Lexes (position + gap.length) text tokens closing := by
  induction gap generalizing position with
  | nil => exact lexes
  | cons c gap ih =>
    obtain ⟨here, later⟩ := List.forall_mem_cons.mp separates
    rw [List.length_cons, Nat.add_comm gap.length, ← Nat.add_assoc]
    exact ih later (lexes.tail_of_separator here)

/-- If the first token of a text is the one that the text starts with, the rest of the text does not
lengthen it and has the other tokens. -/
theorem tail_of_spelling {token : Token} (spelled : Token.IsSpelled token.word)
    (lexes : Lexes position (Token.spelling token.word ++ text) (token :: tokens) closing) :
    token.kind.StopsBefore text ∧
      Lexes (position + (Token.spelling token.word).length) text tokens closing := by
  obtain ⟨_, made⟩ := spelled
  obtain ⟨c, more, spelling_eq, notSeparator, -⟩ := made.exists_first
  generalize text_eq : Token.spelling token.word ++ text = all at lexes
  generalize tokens_eq : token :: tokens = list at lexes
  cases lexes with
  | complete | unusable => cases tokens_eq
  | openQuote =>
    -- An open quote lacks the quote with which a text is spelled.
    obtain ⟨rfl, -⟩ := List.cons.inj tokens_eq
    have length_eq := congrArg List.length text_eq
    simp [Token.spelling, Token.word] at length_eq
  | @lexeme _ _ _ made _ _ first others =>
    cases made with
    | none =>
      cases first with
      | separator separates =>
        rw [spelling_eq] at text_eq
        obtain ⟨rfl, -⟩ := List.cons.inj text_eq
        rw [notSeparator] at separates
        cases separates
    | some word =>
      obtain ⟨rfl, rfl⟩ := List.cons.inj tokens_eq
      have consumed_eq := first.consumed_eq_spelling
      rw [consumed_eq] at text_eq first others
      obtain rfl := List.append_cancel_left text_eq
      exact ⟨first.stopsBefore, others⟩

end Lexes

namespace Token

section ReadsAs

variable {word : TokenKind × String} {words : List (TokenKind × String)} {gap text : List Char}

/-- Wherever the text stands, its tokens have these kinds and lexemes. -/
def ReadsAs (text : List Char) (words : List (TokenKind × String)) : Prop :=
  ∀ position, ∃ tokens, Lexes position text tokens .complete ∧ tokens.map Token.word = words

theorem readsAs_nil : ReadsAs [] [] :=
  fun _ => ⟨[], .complete, rfl⟩

theorem ReadsAs.separators (separates : ∀ c ∈ gap, isSeparator c = true)
    (reads : ReadsAs text words) : ReadsAs (gap ++ text) words := by
  intro position
  obtain ⟨tokens, lexes, words_eq⟩ := reads (position + gap.length)
  exact ⟨tokens, lexes.separators separates, words_eq⟩

/-- A token can be put before a text that does not lengthen it. -/
theorem ReadsAs.cons (spelled : IsSpelled word) (stops : word.1.StopsBefore text)
    (reads : ReadsAs text words) : ReadsAs (spelling word ++ text) (word :: words) := by
  intro position
  obtain ⟨_, made⟩ := spelled
  obtain ⟨tokens, lexes, words_eq⟩ := reads (position + (spelling word).length)
  exact ⟨_, .lexeme (made.followedBy stops) lexes, congrArg (word :: ·) words_eq⟩

end ReadsAs

variable {words : List (TokenKind × String)} {gap : Nat → List Char}

/-- Rendered tokens that are kept apart are the tokens of the rendering. -/
theorem readsAs_render (spelled : ∀ word ∈ words, IsSpelled word)
    (separates : ∀ i, ∀ c ∈ gap i, isSeparator c = true) (apart : KeptApart gap words) :
    ReadsAs (render gap words) words := by
  induction words generalizing gap with
  | nil => exact readsAs_nil
  | cons first rest ih =>
    obtain ⟨here, others⟩ := List.forall_mem_cons.mp spelled
    cases rest with
    | nil =>
      have alone : ReadsAs (spelling first ++ []) [first] :=
        readsAs_nil.cons here ⟨fun _ => nofun, fun _ => nofun⟩
      rwa [List.append_nil] at alone
    | cons next rest =>
      obtain ⟨kept, later⟩ := keptApart_cons.mp apart
      obtain ⟨more, render_eq⟩ := exists_render_cons (fun i => gap (i + 1)) next rest
      have stops : first.1.StopsBefore (gap 0 ++ (spelling next ++ more)) :=
        (TokenKind.stopsBefore_iff (separates 0) (others next List.mem_cons_self)).mpr kept
      rw [← render_eq] at stops
      have reads := ih others (fun i => separates (i + 1)) later
      exact (reads.separators (separates 0)).cons here stops

/-- Tokens that come out of their rendering again are kept apart. -/
theorem keptApart_of_lexes_render (spelled : ∀ word ∈ words, IsSpelled word)
    (separates : ∀ i, ∀ c ∈ gap i, isSeparator c = true) {position : Nat} {tokens : List Token}
    {closing : Closing} (lexes : Lexes position (render gap words) tokens closing)
    (same : tokens.map word = words) : KeptApart gap words := by
  induction words generalizing gap position tokens with
  | nil => exact fun i _ _ here => nomatch here
  | cons first rest ih =>
    obtain ⟨isSpelled, others⟩ := List.forall_mem_cons.mp spelled
    obtain ⟨token, tokens, rfl, rfl, rest_eq⟩ := List.map_eq_cons_iff.mp same
    cases rest with
    | nil => exact fun i _ _ _ next => nomatch next
    | cons next rest =>
      obtain ⟨stops, lexes⟩ := lexes.tail_of_spelling isSpelled
      obtain ⟨more, render_eq⟩ := exists_render_cons (fun i => gap (i + 1)) next rest
      rw [render_eq] at stops
      refine keptApart_cons.mpr ⟨?_, ?_⟩
      · exact (TokenKind.stopsBefore_iff (separates 0) (others next List.mem_cons_self)).mp stops
      · have tail := lexes.tail_of_separators (separates 0)
        exact ih others (fun i => separates (i + 1)) tail rest_eq

end Token

/-- **Rendering tokens and scanning again gives the tokens back.**

The tokens of a source text are written one after the other, a text always with both quotes, and
with separators of any kind and number between neighbours.  If no two neighbours that would fuse are
left without a separator, scanning gives tokens with the same kinds and lexemes, and no quote is
open.  If two of them are, scanning never gives these tokens. -/
theorem Token.scan_render {source : String} {scan : Scan} (scans : Token.scan source = .ok scan)
    (gap : Nat → List Char) (separates : ∀ i, ∀ c ∈ gap i, isSeparator c = true) :
    let words := (beforeEnd scan.tokens).map word
    let text := String.ofList (render gap words)
    (KeptApart gap words → ∃ again, Token.scan text = .ok again ∧ again.openQuote = none ∧
      again.tokens.map word = scan.tokens.map word) ∧
    ∀ again, Token.scan text = .ok again → again.tokens.map word = scan.tokens.map word →
      KeptApart gap words := by
  obtain ⟨body, closing, lexes, readable, tokens_eq⟩ := exists_readable_of_scan scans
  have noEnd := (lexes.segmentation readable List.drop_zero).kind_ne_endOfInput
  rw [tokens_eq, beforeEnd_concat noEnd rfl]
  have spelled : ∀ spelledWord ∈ body.map word, IsSpelled spelledWord :=
    List.forall_mem_map.mpr lexes.isSpelled
  intro words text
  constructor
  · intro apart
    obtain ⟨tokens, lexesAgain, words_eq⟩ := readsAs_render spelled separates apart 0
    rw [← String.toList_ofList (l := render gap words)] at lexesAgain
    refine ⟨_, lexesAgain.scan_eq, rfl, ?_⟩
    rw [List.map_append, List.map_append, words_eq]
    rfl
  · intro again scansAgain same
    obtain ⟨tokens, other, lexesAgain, -, again_eq⟩ := exists_readable_of_scan scansAgain
    rw [String.toList_ofList] at lexesAgain
    rw [again_eq, List.map_append, List.map_append] at same
    have words_eq := (List.append_inj' same rfl).1
    exact keptApart_of_lexes_render spelled separates lexesAgain words_eq

/-- A name, a number and an open text.  A tab keeps the name and the number apart, nothing has to
stand before the quote, and the text is closed.  Without the tab, name and number fuse. -/
theorem Token.scan_render_open_text :
    let scan : Scan := ⟨[⟨.name, "x", ⟨0, 1⟩⟩, ⟨.number, "1", ⟨2, 3⟩⟩, ⟨.text, "é", ⟨3, 5⟩⟩,
      ⟨.endOfInput, "", ⟨4, 5⟩⟩], some 3⟩
    Token.scan "x 1\"é" = .ok scan ∧
      (∃ again, Token.scan "x\t1\"é\"" = .ok again ∧ again.openQuote = none ∧
        again.tokens.map word = scan.tokens.map word) ∧
      ∀ again, Token.scan "x1\"é\"" = .ok again →
        again.tokens.map word ≠ scan.tokens.map word := by
  intro scan
  have scans : Token.scan "x 1\"é" = .ok scan := by decide +kernel
  let tab (i : Nat) : List Char := if i = 0 then ['\t'] else []
  have tabSeparates : ∀ i, ∀ c ∈ tab i, isSeparator c = true := by
    intro i c member
    unfold tab at member
    split at member
    · obtain rfl := List.mem_singleton.mp member
      rfl
    · cases member
  refine ⟨scans, ?_, fun again scansAgain same => ?_⟩
  · refine (scan_render scans tab tabSeparates).1 fun i first next first_eq next_eq fuses => ?_
    match i with
    | 0 => exact List.cons_ne_nil _ _
    | 1 =>
      obtain rfl := Option.some.inj first_eq
      obtain rfl := Option.some.inj next_eq
      rcases fuses with ⟨isWord, -⟩ | ⟨-, isNumber⟩
      · cases isWord
      · cases isNumber
    | i + 2 => cases next_eq
  · have apart := (scan_render scans (fun _ => []) (fun _ _ member => nomatch member)).2 again
      scansAgain same
    exact apart 0 _ _ rfl rfl (Or.inl ⟨rfl, Or.inr rfl⟩) rfl

end PrintLang
