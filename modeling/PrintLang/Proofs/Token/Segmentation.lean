import Mathlib.Data.List.Basic
import PrintLang.Proofs.Token.Lexeme

/-!
# Segmentations

A segmentation of a source text is a list of tokens that says where each of them stands, such
that every token is spelled by the characters at its span, no two spans overlap, and only
separators are left between them.  Words and numbers must not be followed by a character with
which they could go on; this is what makes them as long as possible.

Nothing here is said in terms of a scan.  The result of a scan is the one segmentation that
there is: a list of tokens that satisfies the description can only be read in the way in which
the scanner reads it, token by token and separator by separator from the left.

## Main Definitions

* `Span.slice`, `Span.Covers` — the characters and the positions of a span
* `TokenKind.Spells` — the characters that make a token of a kind
* `Token.Fits` — a token and the characters at its span
* `Segmentation` — the tokens of a text from a position on

## Main Statements

* `Lexes.segmentation`, `Segmentation.exists_lexes` — segmentations and sequences of lexemes
* `scan_iff_segmentation` — a scan gives the one segmentation of its source
-/

namespace PrintLang

/-! ## Spans of a text -/

namespace Span

/-- The characters of a text at a span. -/
def slice (span : Span) (text : List Char) : List Char :=
  (text.drop span.start).take (span.stop - span.start)

/-- A span contains a position. -/
def Covers (span : Span) (position : Nat) : Prop :=
  span.start ≤ position ∧ position < span.stop

/-- What stands after `start` in a text, from there to the end of the span and on. -/
theorem slice_append_drop {span : Span} (text : List Char) (ordered : span.start ≤ span.stop) :
    span.slice text ++ text.drop span.stop = text.drop span.start := by
  have split := List.take_append_drop (span.stop - span.start) (text.drop span.start)
  rwa [List.drop_drop, Nat.add_sub_cancel' ordered] at split

/-- The span of a beginning of the rest of a text. -/
theorem slice_of_drop_eq {position : Nat} {text consumed rest : List Char}
    (drop_eq : text.drop position = consumed ++ rest) :
    (Span.mk position (position + consumed.length)).slice text = consumed := by
  rw [slice, drop_eq, Nat.add_sub_cancel_left, List.take_left]

theorem length_slice {span : Span} {text : List Char} (bound : span.stop ≤ text.length) :
    (span.slice text).length = span.stop - span.start := by
  rw [slice, List.length_take, List.length_drop]
  omega

end Span

/-- The rest of a text after a beginning of its rest. -/
theorem drop_add_length {position : Nat} {text consumed rest : List Char}
    (drop_eq : text.drop position = consumed ++ rest) :
    text.drop (position + consumed.length) = rest := by
  rw [← List.drop_drop, drop_eq, List.drop_left]

/-! ## Spelling -/

namespace TokenKind

/-- The four words that are no names. -/
def keywords : List (List Char) :=
  ["var".toList, "print".toList, "true".toList, "false".toList]

/-- The characters at the span of a token of a kind.  A text is recognised by the quote with
which it starts. -/
def Spells : TokenKind → List Char → Prop
  | varWord, slice => slice = "var".toList
  | printWord, slice => slice = "print".toList
  | trueWord, slice => slice = "true".toList
  | falseWord, slice => slice = "false".toList
  | name, slice => IsWord slice ∧ slice ∉ keywords
  | number, slice => IsDigits slice
  | text, slice => slice.head? = some '"'
  | equals, slice => slice = ['=']
  | plus, slice => slice = ['+']
  | minus, slice => slice = ['-']
  | star, slice => slice = ['*']
  | slash, slice => slice = ['/']
  | semicolon, slice => slice = [';']
  | endOfInput, _ => False

theorem isWord_of_mem_keywords {word : List Char} (member : word ∈ keywords) : IsWord word := by
  have isWord {first : Char} {rest : List Char} (startsWord : isWordStart first = true)
      (parts : rest.all isWordPart = true) : IsWord (first :: rest) :=
    ⟨first, rest, rfl, startsWord, List.all_eq_true.mp parts⟩
  simp only [keywords, List.mem_cons, List.not_mem_nil, or_false] at member
  rcases member with rfl | rfl | rfl | rfl
  all_goals exact isWord (by decide) (by decide)

theorem spells_ofWord {word : List Char} (isWord : IsWord word) :
    (ofWord (String.ofList word)).Spells word := by
  have same {keyword : String} (eq : String.ofList word = keyword) : word = keyword.toList := by
    rw [← eq, String.toList_ofList]
  unfold ofWord
  split_ifs with isVar isPrint isTrue isFalse
  · exact same isVar
  · exact same isPrint
  · exact same isTrue
  · exact same isFalse
  · refine ⟨isWord, fun member => ?_⟩
    simp only [keywords, List.mem_cons, List.not_mem_nil, or_false] at member
    rcases member with rfl | rfl | rfl | rfl
    · exact isVar String.ofList_toList
    · exact isPrint String.ofList_toList
    · exact isTrue String.ofList_toList
    · exact isFalse String.ofList_toList

theorem spells_ofSign {c : Char} {kind : TokenKind} (isSign : ofSign? c = some kind) :
    kind.Spells [c] := by
  unfold ofSign? at isSign
  split at isSign
  case h_7 => cases isSign
  all_goals
    obtain rfl := Option.some.inj isSign
    rfl

theorem ofWord_ne_text (word : String) : ofWord word ≠ text := by
  unfold ofWord
  split_ifs <;> decide

theorem ofSign?_ne_text (c : Char) : ofSign? c ≠ some text := by
  unfold ofSign?
  split <;> decide

/-- Every kind but a text is spelled by a word, a number or a sign. -/
theorem Spells.cases {kind : TokenKind} {slice : List Char} (spells : kind.Spells slice)
    (notText : kind ≠ text) :
    IsWord slice ∨ IsDigits slice ∨ ∃ c, slice = [c] ∧ ofSign? c = some kind := by
  cases kind with
  | varWord | printWord | trueWord | falseWord =>
    obtain rfl := spells
    exact Or.inl (isWord_of_mem_keywords (by decide))
  | name => exact Or.inl spells.1
  | number => exact Or.inr (Or.inl spells)
  | text => exact absurd rfl notText
  | equals | plus | minus | star | slash | semicolon =>
    exact Or.inr (Or.inr ⟨_, spells, rfl⟩)
  | endOfInput => exact spells.elim

/-- The kind that the first character of a token decides on, but for the words. -/
def ofSlice (slice : List Char) : Option TokenKind :=
  slice.head?.map fun c =>
    (ofSign? c).getD
      (if c = '"' then text
      else if c.isDigit then number
      else ofWord (String.ofList slice))

theorem ofSlice_of_isWord {word : List Char} (isWord : IsWord word) :
    ofSlice word = some (ofWord (String.ofList word)) := by
  obtain ⟨first, rest, rfl, startsWord, -⟩ := isWord
  have notDigit := isDigit_eq_false_of_isWordStart startsWord
  have ⟨notSign, _, notQuote⟩ := of_not_mem_punctuation (not_mem_of_isWordStart startsWord)
  simp [ofSlice, notSign, notQuote, notDigit]

theorem ofSlice_of_isDigits {digits : List Char} (isDigits : IsDigits digits) :
    ofSlice digits = some number := by
  obtain ⟨nonempty, members⟩ := isDigits
  obtain ⟨first, rest, rfl⟩ := List.exists_cons_of_ne_nil nonempty
  have isDigit := members first List.mem_cons_self
  have ⟨notSign, _, notQuote⟩ := of_not_mem_punctuation (not_mem_of_isDigit isDigit)
  simp [ofSlice, notSign, notQuote, isDigit]

theorem Spells.ofSlice_eq {kind : TokenKind} {slice : List Char} (spells : kind.Spells slice) :
    ofSlice slice = some kind := by
  cases kind with
  | varWord | printWord | trueWord | falseWord =>
    obtain rfl := spells
    exact ofSlice_of_isWord (isWord_of_mem_keywords (by decide))
  | name =>
    obtain ⟨isWord, notKeyword⟩ := spells
    have notWord {keyword : String} (member : keyword.toList ∈ keywords) :
        String.ofList slice ≠ keyword := by
      rintro rfl
      rw [String.toList_ofList] at member
      exact notKeyword member
    -- A name is a word that is none of the four.
    rw [ofSlice_of_isWord isWord, ofWord, if_neg (notWord (by decide)),
      if_neg (notWord (by decide)), if_neg (notWord (by decide)), if_neg (notWord (by decide))]
  | number => exact ofSlice_of_isDigits spells
  | text =>
    have head_eq : slice.head? = some '"' := spells
    rw [ofSlice, head_eq]
    rfl
  | equals | plus | minus | star | slash | semicolon =>
    obtain rfl := spells
    rfl
  | endOfInput => exact spells.elim

/-- The same characters do not spell tokens of two kinds. -/
theorem Spells.unique {kind other : TokenKind} {slice : List Char} (spells : kind.Spells slice)
    (others : other.Spells slice) : kind = other :=
  Option.some.inj (spells.ofSlice_eq.symm.trans others.ofSlice_eq)

end TokenKind

/-! ## Tokens and their characters -/

/-- A token as the characters at its span make it.  A text may lack its closing quote if it
reaches to the end of the source; no further token has room there. -/
structure Token.Fits (token : Token) (text : List Char) : Prop where
  start_lt_stop : token.span.start < token.span.stop
  stop_le_length : token.span.stop ≤ text.length
  /-- The characters decide on the kind, and the kind on what the characters can be. -/
  kind_eq_iff : ∀ kind, token.kind = kind ↔ kind.Spells (token.span.slice text)
  slice_eq : token.kind ≠ .text → token.span.slice text = token.lexeme.toList
  /-- The lexeme of a text leaves out the quotes. -/
  quoted : token.kind = .text → '"' ∉ token.lexeme.toList ∧
    (token.span.slice text = '"' :: token.lexeme.toList ++ ['"'] ∨
      token.span.slice text = '"' :: token.lexeme.toList ∧ token.span.stop = text.length)
  /-- A word is as long as possible. -/
  word_stops : IsWord (token.span.slice text) → Stops isWordPart (text.drop token.span.stop)
  /-- So is a number. -/
  number_stops : IsDigits (token.span.slice text) →
    Stops Char.isDigit (text.drop token.span.stop)

/-- The tokens of a text from a position on: each fits, they stand in the order of the text
without overlapping, and what no token covers is a separator. -/
structure Segmentation (position : Nat) (text : List Char) (tokens : List Token) : Prop where
  starts : ∀ token ∈ tokens, position ≤ token.span.start
  fits : ∀ token ∈ tokens, token.Fits text
  ordered : tokens.Pairwise fun earlier later => earlier.span.stop ≤ later.span.start
  separated : ∀ i c, position ≤ i → text[i]? = some c →
    (∀ token ∈ tokens, ¬ token.span.Covers i) → isSeparator c = true

/-! ### From lexemes to tokens -/

theorem Lexeme.spells {consumed rest : List Char} {kind : TokenKind} {lexeme : String}
    (made : Lexeme consumed rest (some (kind, lexeme))) : kind.Spells consumed := by
  cases made with
  | sign isSign => exact TokenKind.spells_ofSign isSign
  | number isDigits => exact isDigits
  | word isWord => exact TokenKind.spells_ofWord isWord
  | text => rfl

/-- Only the lexeme of a text differs from the characters of the token. -/
theorem Lexeme.consumed_eq {consumed rest : List Char} {kind : TokenKind} {lexeme : String}
    (made : Lexeme consumed rest (some (kind, lexeme))) :
    (kind ≠ .text ∧ consumed = lexeme.toList) ∨
      (kind = .text ∧ '"' ∉ lexeme.toList ∧ consumed = '"' :: lexeme.toList ++ ['"']) := by
  cases made with
  | sign isSign =>
    refine Or.inl ⟨?_, by simp⟩
    rintro rfl
    exact TokenKind.ofSign?_ne_text _ isSign
  | number => exact Or.inl ⟨by decide, String.toList_ofList.symm⟩
  | word => exact Or.inl ⟨TokenKind.ofWord_ne_text _, String.toList_ofList.symm⟩
  | text noQuote =>
    rw [String.toList_ofList]
    exact Or.inr ⟨rfl, noQuote, rfl⟩

theorem IsWord.not_isDigits {word : List Char} (isWord : IsWord word) : ¬ IsDigits word := by
  obtain ⟨first, more, rfl, startsWord, -⟩ := isWord
  intro isDigits
  have isDigit := isDigits.2 first List.mem_cons_self
  rw [isDigit_eq_false_of_isWordStart startsWord] at isDigit
  exact Bool.false_ne_true isDigit

/-- A lexeme starts with punctuation, or is a number or a word that stops. -/
theorem Lexeme.cases_first {consumed rest : List Char} {made : Option (TokenKind × String)}
    (lexeme : Lexeme consumed rest made) :
    (∃ c ∈ punctuation, consumed.head? = some c) ∨
      (IsDigits consumed ∧ Stops Char.isDigit rest) ∨
      (IsWord consumed ∧ Stops isWordPart rest) := by
  cases lexeme with
  | separator separates => exact Or.inl ⟨_, (mem_of_isSeparator separates).1, rfl⟩
  | sign isSign => exact Or.inl ⟨_, mem_of_ofSign?_eq_some isSign, rfl⟩
  | number isDigits stops => exact Or.inr (Or.inl ⟨isDigits, stops⟩)
  | word isWord stops => exact Or.inr (Or.inr ⟨isWord, stops⟩)
  | text => exact Or.inl ⟨'"', by decide, rfl⟩

theorem Lexeme.stops_of_isWord {consumed rest : List Char} {made : Option (TokenKind × String)}
    (lexeme : Lexeme consumed rest made) (isWord : IsWord consumed) : Stops isWordPart rest := by
  rcases lexeme.cases_first with ⟨c, member, head_eq⟩ | ⟨isDigits, -⟩ | ⟨-, stops⟩
  · obtain ⟨first, more, rfl, startsWord, -⟩ := isWord
    obtain rfl := Option.some.inj head_eq
    exact absurd member (not_mem_of_isWordStart startsWord)
  · exact absurd isDigits isWord.not_isDigits
  · exact stops

theorem Lexeme.stops_of_isDigits {consumed rest : List Char}
    {made : Option (TokenKind × String)} (lexeme : Lexeme consumed rest made)
    (isDigits : IsDigits consumed) : Stops Char.isDigit rest := by
  rcases lexeme.cases_first with ⟨c, member, head_eq⟩ | ⟨-, stops⟩ | ⟨isWord, -⟩
  · have isDigit := isDigits.2 c (List.mem_of_mem_head? head_eq)
    exact absurd member (not_mem_of_isDigit isDigit)
  · exact stops
  · exact absurd isDigits isWord.not_isDigits

/-- A token fits if it stands where its characters do and these are as they should be. -/
theorem Token.Fits.of_drop_eq {position : Nat} {text consumed rest : List Char}
    {kind : TokenKind} {lexeme : String} (drop_eq : text.drop position = consumed ++ rest)
    (nonempty : consumed ≠ []) (spells : kind.Spells consumed)
    (same : kind ≠ .text → consumed = lexeme.toList)
    (quoted : kind = .text → '"' ∉ lexeme.toList ∧
      (consumed = '"' :: lexeme.toList ++ ['"'] ∨ consumed = '"' :: lexeme.toList ∧ rest = []))
    (word_stops : IsWord consumed → Stops isWordPart rest)
    (number_stops : IsDigits consumed → Stops Char.isDigit rest) :
    (Token.mk kind lexeme ⟨position, position + consumed.length⟩).Fits text := by
  have positive := List.length_pos_iff.mpr nonempty
  have slice_eq := Span.slice_of_drop_eq drop_eq
  have rest_eq := drop_add_length drop_eq
  have length_eq : text.length - position = consumed.length + rest.length := by
    rw [← List.length_drop, drop_eq, List.length_append]
  constructor
  case start_lt_stop =>
    show position < position + consumed.length
    omega
  case stop_le_length =>
    show position + consumed.length ≤ text.length
    omega
  case kind_eq_iff =>
    intro other
    rw [slice_eq]
    constructor
    · rintro rfl
      exact spells
    · exact spells.unique
  case slice_eq =>
    rw [slice_eq]
    exact same
  case quoted =>
    intro isText
    rw [slice_eq]
    obtain ⟨noQuote, closed | ⟨opened, rfl⟩⟩ := quoted isText
    · exact ⟨noQuote, Or.inl closed⟩
    · refine ⟨noQuote, Or.inr ⟨opened, ?_⟩⟩
      show position + consumed.length = text.length
      rw [List.length_nil] at length_eq
      omega
  case word_stops =>
    rw [slice_eq, rest_eq]
    exact word_stops
  case number_stops =>
    rw [slice_eq, rest_eq]
    exact number_stops

/-- The token of a lexeme fits the text in which the lexeme stands. -/
theorem Lexeme.fits {position : Nat} {text consumed rest : List Char} {kind : TokenKind}
    {lexeme : String} (made : Lexeme consumed rest (some (kind, lexeme)))
    (drop_eq : text.drop position = consumed ++ rest) :
    (Token.mk kind lexeme ⟨position, position + consumed.length⟩).Fits text := by
  refine .of_drop_eq drop_eq made.consumed_ne_nil made.spells (fun notText => ?_)
    (fun isText => ?_) made.stops_of_isWord made.stops_of_isDigits
  · rcases made.consumed_eq with ⟨-, same⟩ | ⟨isText, -⟩
    · exact same
    · exact absurd isText notText
  · rcases made.consumed_eq with ⟨notText, -⟩ | ⟨-, noQuote, same⟩
    · exact absurd isText notText
    · exact ⟨noQuote, Or.inl same⟩

/-- So does the token of an open quote at the end. -/
theorem fits_openQuote {position : Nat} {text content : List Char}
    (drop_eq : text.drop position = '"' :: content) (noQuote : '"' ∉ content) :
    (Token.mk .text (String.ofList content) ⟨position, position + content.length + 1⟩).Fits
      text := by
  have stops (class_ : Char → Bool) : Stops class_ [] := fun _ member => nomatch member
  rw [← List.append_nil ('"' :: content)] at drop_eq
  refine .of_drop_eq drop_eq (List.cons_ne_nil _ _) rfl (fun notText => absurd rfl notText)
    (fun _ => ?_) (fun _ => stops _) (fun _ => stops _)
  rw [String.toList_ofList]
  exact ⟨noQuote, Or.inr ⟨rfl, rfl⟩⟩

/-! ### From tokens to lexemes -/

/-- What fits a token is its lexeme, unless it is an open quote at the end. -/
theorem Token.Fits.lexeme_or {token : Token} {text : List Char} (fits : token.Fits text) :
    Lexeme (token.span.slice text) (text.drop token.span.stop)
        (some (token.kind, token.lexeme)) ∨
      (token.kind = .text ∧ '"' ∉ token.lexeme.toList ∧ token.span.stop = text.length ∧
        token.span.slice text = '"' :: token.lexeme.toList) := by
  have spells := (fits.kind_eq_iff token.kind).mp rfl
  by_cases isText : token.kind = .text
  · obtain ⟨noQuote, closed | ⟨opened, atEnd⟩⟩ := fits.quoted isText
    · left
      have lexeme : Lexeme ('"' :: token.lexeme.toList ++ ['"']) (text.drop token.span.stop)
          (some (.text, String.ofList token.lexeme.toList)) := .text noQuote
      rwa [← closed, String.ofList_toList, ← isText] at lexeme
    · exact Or.inr ⟨isText, noQuote, atEnd, opened⟩
  · left
    have lexeme_eq : token.lexeme = String.ofList (token.span.slice text) := by
      rw [fits.slice_eq isText, String.ofList_toList]
    rw [lexeme_eq]
    rcases spells.cases isText with isWord | isDigits | ⟨c, slice_eq, isSign⟩
    · rw [spells.unique (TokenKind.spells_ofWord isWord)]
      exact .word isWord (fits.word_stops isWord)
    · rw [spells.unique (show TokenKind.number.Spells _ from isDigits)]
      exact .number isDigits (fits.number_stops isDigits)
    · rw [slice_eq, ← String.singleton_eq_ofList]
      exact .sign isSign

/-! ## Segmentations and sequences of lexemes -/

namespace Segmentation

variable {position : Nat} {text : List Char} {tokens : List Token}

/-- At the end there are no tokens left. -/
theorem nil_of_length_le (atEnd : text.length ≤ position) : Segmentation position text [] := by
  refine ⟨by simp, by simp, List.Pairwise.nil, fun i c le member _ => ?_⟩
  obtain ⟨lt, -⟩ := List.getElem?_eq_some_iff.mp member
  omega

/-- A separator before a segmentation. -/
theorem separator {c : Char} {rest : List Char} (drop_eq : text.drop position = c :: rest)
    (separates : isSeparator c = true) (others : Segmentation (position + 1) text tokens) :
    Segmentation position text tokens := by
  refine ⟨fun token member => ?_, others.fits, others.ordered, fun i other le char_eq free => ?_⟩
  · exact Nat.le_of_succ_le (others.starts token member)
  · rcases Nat.eq_or_lt_of_le le with rfl | lt
    · have head_eq : text[position]? = some c := by
        rw [← List.head?_drop, drop_eq, List.head?_cons]
      rw [char_eq] at head_eq
      rwa [Option.some.inj head_eq]
    · exact others.separated i other lt char_eq free

/-- A token before a segmentation. -/
theorem cons {token : Token} (start_eq : token.span.start = position) (fits : token.Fits text)
    (others : Segmentation token.span.stop text tokens) :
    Segmentation position text (token :: tokens) := by
  have after : ∀ later ∈ tokens, token.span.stop ≤ later.span.start := others.starts
  refine ⟨?_, ?_, ?_, ?_⟩
  · refine List.forall_mem_cons.mpr ⟨start_eq.ge, fun later member => ?_⟩
    have := after later member
    have := fits.start_lt_stop
    omega
  · exact List.forall_mem_cons.mpr ⟨fits, others.fits⟩
  · exact List.pairwise_cons.mpr ⟨after, others.ordered⟩
  · intro i c le char_eq free
    obtain ⟨notHere, free⟩ := List.forall_mem_cons.mp free
    have past : token.span.stop ≤ i := by
      by_contra before
      exact notHere ⟨start_eq ▸ le, Nat.lt_of_not_le before⟩
    exact others.separated i c past char_eq free

/-- The rest of a segmentation after its first token. -/
theorem tail {token : Token} (segmentation : Segmentation position text (token :: tokens)) :
    Segmentation token.span.stop text tokens := by
  obtain ⟨after, ordered⟩ := List.pairwise_cons.mp segmentation.ordered
  have start_le := segmentation.starts token List.mem_cons_self
  have nonempty := (segmentation.fits token List.mem_cons_self).start_lt_stop
  refine ⟨after, (List.forall_mem_cons.mp segmentation.fits).2, ordered,
    fun i c le char_eq free => segmentation.separated i c (by omega) char_eq ?_⟩
  exact List.forall_mem_cons.mpr ⟨fun covers => Nat.not_lt_of_le le covers.2, free⟩

/-- If no token starts at a position, a separator stands there. -/
theorem of_gap {c : Char} {rest : List Char} (segmentation : Segmentation position text tokens)
    (drop_eq : text.drop position = c :: rest)
    (gap : ∀ token ∈ tokens, position < token.span.start) :
    isSeparator c = true ∧ Segmentation (position + 1) text tokens := by
  refine ⟨?_, gap, segmentation.fits, segmentation.ordered,
    fun i other le => segmentation.separated i other (Nat.le_of_succ_le le)⟩
  have char_eq : text[position]? = some c := by
    rw [← List.head?_drop, drop_eq, List.head?_cons]
  refine segmentation.separated position c (Nat.le_refl _) char_eq fun token member covers => ?_
  exact Nat.not_lt_of_le covers.1 (gap token member)

/-- If the first token starts later, so do all of them. -/
theorem forall_lt_start {token : Token}
    (segmentation : Segmentation position text (token :: tokens))
    (later : position < token.span.start) :
    ∀ other ∈ token :: tokens, position < other.span.start := by
  have after := (List.pairwise_cons.mp segmentation.ordered).1
  have nonempty := (segmentation.fits token List.mem_cons_self).start_lt_stop
  refine List.forall_mem_cons.mpr ⟨later, fun other member => ?_⟩
  have := after other member
  omega

/-- The end of the source is not among the tokens, since nothing spells it. -/
theorem kind_ne_endOfInput (segmentation : Segmentation position text tokens) :
    ∀ token ∈ tokens, token.kind ≠ .endOfInput := by
  intro token member isEnd
  exact ((segmentation.fits token member).kind_eq_iff .endOfInput).mp isEnd

theorem eq_nil_of_length_le (segmentation : Segmentation position text tokens)
    (atEnd : text.length ≤ position) : tokens = [] := by
  rw [List.eq_nil_iff_forall_not_mem]
  intro token member
  have := segmentation.starts token member
  have := (segmentation.fits token member).start_lt_stop
  have := (segmentation.fits token member).stop_le_length
  omega

end Segmentation

/-- A sequence of lexemes goes on to the end of the text. -/
def Closing.Readable (closing : Closing) : Prop :=
  ∀ symbol position, closing ≠ .unusable symbol position

/-- A sequence of lexemes is a segmentation, unless it breaks off before an unusable
character. -/
theorem Lexes.segmentation {position : Nat} {text rest : List Char} {tokens : List Token}
    {closing : Closing} (lexes : Lexes position rest tokens closing) (readable : closing.Readable)
    (drop_eq : text.drop position = rest) : Segmentation position text tokens := by
  induction lexes with
  | complete => exact .nil_of_length_le (List.drop_eq_nil_iff.mp drop_eq)
  | openQuote noQuote =>
    have fits := fits_openQuote drop_eq noQuote
    have length_eq := congrArg List.length drop_eq
    rw [List.length_drop, List.length_cons] at length_eq
    refine .cons rfl fits (.nil_of_length_le ?_)
    show text.length ≤ _ + _ + 1
    omega
  | unusable => exact absurd rfl (readable _ _)
  | @lexeme position consumed rest made tokens closing first others ih =>
    have others := ih readable (drop_add_length drop_eq)
    cases made with
    | none =>
      cases first with
      | separator separates => exact others.separator drop_eq separates
    | some made => exact .cons rfl (first.fits drop_eq) others

/-- A token that fits, before a sequence of lexemes.  Nothing follows one that reaches to the
end. -/
theorem Token.Fits.exists_lexes {token : Token} {text : List Char} {tokens : List Token}
    {closing : Closing} (fits : token.Fits text)
    (others : Lexes token.span.stop (text.drop token.span.stop) tokens closing)
    (readable : closing.Readable) (last : text.length ≤ token.span.stop → tokens = []) :
    ∃ closing, Lexes token.span.start (text.drop token.span.start) (token :: tokens) closing ∧
      closing.Readable := by
  have nonempty := fits.start_lt_stop
  have length_eq := Span.length_slice fits.stop_le_length
  rw [← Span.slice_append_drop text (Nat.le_of_lt nonempty)]
  rcases fits.lexeme_or with lexeme | ⟨isText, noQuote, atEnd, slice_eq⟩
  · have stop_eq : token.span.start + (token.span.slice text).length = token.span.stop := by
      omega
    have others : Lexes (token.span.start + (token.span.slice text).length)
        (text.drop token.span.stop) tokens closing := by
      rwa [stop_eq]
    have all := Lexes.lexeme lexeme others
    rw [stop_eq] at all
    exact ⟨closing, all, readable⟩
  · -- The text runs to the end, so there is nothing left to be read.
    obtain rfl := last atEnd.ge
    have all : Lexes token.span.start _ _ _ := .openQuote noQuote
    have stop_eq : token.span.start + token.lexeme.toList.length + 1 = token.span.stop := by
      rw [slice_eq, List.length_cons] at length_eq
      omega
    rw [stop_eq, ← isText, String.ofList_toList, ← slice_eq] at all
    rw [atEnd, List.drop_length, List.append_nil]
    exact ⟨_, all, fun _ _ => by simp⟩

/-- A segmentation is a sequence of lexemes: its first token is the first lexeme, unless a
separator stands before it. -/
theorem Segmentation.exists_lexes {position : Nat} {text : List Char} {tokens : List Token}
    (segmentation : Segmentation position text tokens) :
    ∃ closing, Lexes position (text.drop position) tokens closing ∧ closing.Readable := by
  -- By the number of characters left.  The tokens do not serve, since separators have none.
  induction size_eq : text.length - position using Nat.strongRecOn
      generalizing position tokens with
  | ind size ih =>
    subst size_eq
    cases drop_eq : text.drop position with
    | nil =>
      obtain rfl := segmentation.eq_nil_of_length_le (List.drop_eq_nil_iff.mp drop_eq)
      exact ⟨.complete, .complete, fun _ _ => by simp⟩
    | cons c rest =>
      have inside : position < text.length := by
        by_contra atEnd
        rw [List.drop_eq_nil_of_le (Nat.le_of_not_lt atEnd)] at drop_eq
        cases drop_eq
      have separated (gap : ∀ token ∈ tokens, position < token.span.start) :
          ∃ closing, Lexes position (c :: rest) tokens closing ∧ closing.Readable := by
        obtain ⟨separates, others⟩ := segmentation.of_gap drop_eq gap
        obtain ⟨closing, others, readable⟩ := ih _ (by omega) others rfl
        have rest_eq : text.drop (position + [c].length) = rest := drop_add_length drop_eq
        rw [← rest_eq]
        exact ⟨closing, .lexeme (.separator separates) others, readable⟩
      cases tokens with
      | nil => exact separated fun _ member => absurd member List.not_mem_nil
      | cons token others =>
        rcases Nat.eq_or_lt_of_le (segmentation.starts token List.mem_cons_self) with here | later
        · have fits := segmentation.fits token List.mem_cons_self
          have nonempty := fits.start_lt_stop
          obtain ⟨closing, after, readable⟩ := ih _ (by omega) segmentation.tail rfl
          rw [← drop_eq, here]
          exact fits.exists_lexes after readable segmentation.tail.eq_nil_of_length_le
        · exact separated (segmentation.forall_lt_start later)

/-! ## The result of a scan -/

theorem Closing.Readable.result {closing : Closing} (readable : closing.Readable)
    (tokens : List Token) (length : Nat) :
    ∃ scan, closing.result tokens length = .ok scan ∧
      scan.tokens = tokens ++ [⟨.endOfInput, "", .atEnd length⟩] := by
  cases closing with
  | complete => exact ⟨_, rfl, rfl⟩
  | openQuote start => exact ⟨_, rfl, rfl⟩
  | unusable symbol position => exact absurd rfl (readable symbol position)

theorem Closing.readable_of_result {closing : Closing} {tokens : List Token} {length : Nat}
    {scan : Scan} (result : closing.result tokens length = .ok scan) : closing.Readable := by
  rintro symbol position rfl
  cases result

/-- A scan that succeeds comes from a sequence of lexemes that goes on to the end. -/
theorem exists_readable_of_scan {source : String} {scan : Scan}
    (scans : Token.scan source = .ok scan) :
    ∃ tokens closing, Lexes 0 source.toList tokens closing ∧ closing.Readable ∧
      scan.tokens = tokens ++ [⟨.endOfInput, "", .atEnd source.length⟩] := by
  obtain ⟨tokens, closing, lexes, result⟩ := exists_lexes_of_scan scans
  have readable := Closing.readable_of_result result
  obtain ⟨other, same, tokens_eq⟩ := readable.result tokens source.length
  obtain rfl := Except.ok.inj (same.symm.trans result)
  exact ⟨tokens, closing, lexes, readable, tokens_eq⟩

/-- A scan gives the one segmentation of its source, and the token for the end after it. -/
theorem scan_iff_segmentation (source : String) (tokens : List Token) :
    (∃ scan, Token.scan source = .ok scan ∧ scan.tokens = tokens) ↔
      ∃ body, Segmentation 0 source.toList body ∧
        tokens = body ++
          [⟨.endOfInput, "", ⟨max source.length 1 - 1, source.length⟩⟩] := by
  have atEnd_eq : (⟨max source.length 1 - 1, source.length⟩ : Span) = .atEnd source.length := by
    rw [Span.atEnd, Span.mk.injEq]
    omega
  rw [atEnd_eq]
  constructor
  · rintro ⟨scan, scans, rfl⟩
    obtain ⟨body, closing, lexes, readable, tokens_eq⟩ := exists_readable_of_scan scans
    exact ⟨body, lexes.segmentation readable List.drop_zero, tokens_eq⟩
  · rintro ⟨body, segmentation, rfl⟩
    obtain ⟨closing, lexes, readable⟩ := segmentation.exists_lexes
    obtain ⟨scan, result, tokens_eq⟩ := readable.result body source.length
    exact ⟨scan, lexes.scan_eq.trans result, tokens_eq⟩

end PrintLang
