import Mathlib.Data.List.TakeWhile
import PrintLang.Token.Scanner

/-!
# Lexemes

A source text is a sequence of *lexemes*: separators, signs, numbers, words and texts in
quotes.  Each of them is described here by the characters it is made of and, for numbers and
words, by the character that may not follow.  Nothing in the description depends on where a
lexeme stands, and the scanner is not mentioned in it.

The scanner is then compared with the sequence of lexemes.  It reads one character at a time
and keeps an unfinished token between two characters; at the boundary of two lexemes there is
none, and from one boundary to the next it reads exactly one lexeme.

## Main Definitions

* `Lexeme` — the characters of a lexeme, what follows, and the token it makes
* `Lexes` — a text as a sequence of lexemes, up to its end or to an unusable character
* `Scanner.boundary`, `Scanner.run` — the scanner between two lexemes, and the rest of a scan

## Main Statements

* `exists_lexes` — every text is a sequence of lexemes up to a closing
* `Lexes.run_eq` — the scanner follows the sequence
* `Lexes.scan_eq`, `exists_lexes_of_scan` — hence a scan is determined by it
-/

namespace PrintLang

/-! ## Characters -/

/-- No class of characters that start a word reaches below the letter `A`. -/
theorem isWordStart_eq_false_of_lt {c : Char} (lt : c.toNat < 0x41) : isWordStart c = false := by
  have notAlphabetic : isAlphabetic c = false := by
    rw [isAlphabetic, alphabeticRanges, inRanges, if_pos lt]
  have notUnderscore : c ≠ '_' := by
    rintro rfl
    exact absurd lt (by decide)
  rw [isWordStart, notAlphabetic, Bool.false_or]
  exact beq_eq_false_iff_ne.mpr notUnderscore

theorem isWordStart_eq_false_of_isDigit {c : Char} (isDigit : c.isDigit = true) :
    isWordStart c = false := by
  have ⟨_, le⟩ := Char.isDigit_iff_toNat.mp isDigit
  exact isWordStart_eq_false_of_lt (Nat.lt_of_le_of_lt le (by decide))

/-- The characters that are lexemes of their own or open one. -/
def punctuation : List Char :=
  ['=', '+', '-', '*', '/', ';', ' ', '\t', '\r', '\n', '"']

/-- Punctuation starts neither a word nor a number. -/
theorem class_eq_false_of_mem {c : Char} (member : c ∈ punctuation) :
    isWordStart c = false ∧ c.isDigit = false := by
  have all : punctuation.all (fun c => c.toNat < 0x41 ∧ c.isDigit = false) = true := by decide
  have ⟨lt, notDigit⟩ := of_decide_eq_true (List.all_eq_true.mp all c member)
  exact ⟨isWordStart_eq_false_of_lt lt, notDigit⟩

theorem mem_of_ofSign?_eq_some {c : Char} {kind : TokenKind}
    (isSign : TokenKind.ofSign? c = some kind) : c ∈ punctuation := by
  unfold TokenKind.ofSign? at isSign
  split at isSign
  case h_7 => cases isSign
  all_goals decide

theorem mem_of_isSeparator {c : Char} (separates : isSeparator c = true) :
    c ∈ punctuation ∧ TokenKind.ofSign? c = none := by
  simp only [isSeparator, Bool.or_eq_true, beq_iff_eq] at separates
  rcases separates with ((rfl | rfl) | rfl) | rfl
  all_goals exact ⟨by decide, rfl⟩

/-- What is known of a character that is no punctuation. -/
theorem of_not_mem_punctuation {c : Char} (notMember : c ∉ punctuation) :
    TokenKind.ofSign? c = none ∧ isSeparator c = false ∧ c ≠ '"' := by
  refine ⟨?_, ?_, ?_⟩
  · by_contra isSign
    obtain ⟨kind, isSign⟩ := Option.ne_none_iff_exists'.mp isSign
    exact notMember (mem_of_ofSign?_eq_some isSign)
  · by_contra separates
    exact notMember (mem_of_isSeparator (by simpa using separates)).1
  · rintro rfl
    exact notMember (by decide)

theorem not_mem_of_isDigit {c : Char} (isDigit : c.isDigit = true) : c ∉ punctuation := by
  intro member
  rw [(class_eq_false_of_mem member).2] at isDigit
  exact Bool.false_ne_true isDigit

theorem not_mem_of_isWordStart {c : Char} (startsWord : isWordStart c = true) :
    c ∉ punctuation := by
  intro member
  rw [(class_eq_false_of_mem member).1] at startsWord
  exact Bool.false_ne_true startsWord

theorem isDigit_eq_false_of_isWordStart {c : Char} (startsWord : isWordStart c = true) :
    c.isDigit = false := by
  by_contra isDigit
  rw [isWordStart_eq_false_of_isDigit (by simpa using isDigit)] at startsWord
  exact Bool.false_ne_true startsWord

/-- No character of a class comes next. -/
def Stops (class_ : Char → Bool) (rest : List Char) : Prop :=
  ∀ c ∈ rest.head?, class_ c = false

/-- A word: a first character and characters with which words go on. -/
def IsWord (word : List Char) : Prop :=
  ∃ first rest, word = first :: rest ∧ isWordStart first = true ∧
    ∀ c ∈ rest, isWordPart c = true

/-- A number: at least one digit, and nothing else. -/
def IsDigits (digits : List Char) : Prop :=
  digits ≠ [] ∧ ∀ c ∈ digits, c.isDigit = true

/-- A character with which no lexeme starts. -/
structure IsUnusable (c : Char) : Prop where
  notSign : TokenKind.ofSign? c = none
  notSeparator : isSeparator c = false
  notQuote : c ≠ '"'
  notDigit : c.isDigit = false
  notWordStart : isWordStart c = false

/-! ## Lexemes -/

/-- A lexeme that is complete before `rest`, with the kind and the lexeme of its token, unless
it is a separator.  Numbers and words do not end where they could go on. -/
inductive Lexeme : (consumed rest : List Char) → Option (TokenKind × String) → Prop
  | separator {c : Char} {rest : List Char} (separates : isSeparator c = true) :
    Lexeme [c] rest none
  | sign {c : Char} {rest : List Char} {kind : TokenKind}
    (isSign : TokenKind.ofSign? c = some kind) :
    Lexeme [c] rest (some (kind, String.singleton c))
  | number {digits rest : List Char} (isDigits : IsDigits digits)
    (stops : Stops Char.isDigit rest) :
    Lexeme digits rest (some (.number, String.ofList digits))
  | word {word rest : List Char} (isWord : IsWord word) (stops : Stops isWordPart rest) :
    Lexeme word rest (some (TokenKind.ofWord (String.ofList word), String.ofList word))
  | text {content rest : List Char} (noQuote : '"' ∉ content) :
    Lexeme ('"' :: content ++ ['"']) rest (some (.text, String.ofList content))

/-- The tokens of a lexeme between two positions: one, or none for a separator. -/
def Lexeme.tokens (start stop : Nat) : Option (TokenKind × String) → List Token
  | none => []
  | some (kind, lexeme) => [⟨kind, lexeme, ⟨start, stop⟩⟩]

theorem Lexeme.consumed_ne_nil {consumed rest : List Char} {made : Option (TokenKind × String)}
    (lexeme : Lexeme consumed rest made) : consumed ≠ [] := by
  cases lexeme with
  | separator => exact List.cons_ne_nil _ _
  | sign => exact List.cons_ne_nil _ _
  | number isDigits => exact isDigits.1
  | word isWord =>
    obtain ⟨first, rest, rfl, -⟩ := isWord
    exact List.cons_ne_nil _ _
  | text => exact List.cons_ne_nil _ _

/-- How a sequence of lexemes ends. -/
inductive Closing
  /-- With the text. -/
  | complete
  /-- With a quote at `start` that no quote follows. -/
  | openQuote (start : Nat)
  /-- Before a character that starts no lexeme. -/
  | unusable (symbol : Char) (position : Nat)
deriving DecidableEq

/-- From a position on, a text consists of lexemes up to a closing.  The characters after an
open quote make a token as well. -/
inductive Lexes : (position : Nat) → (text : List Char) → List Token → Closing → Prop
  | complete {position : Nat} : Lexes position [] [] .complete
  | openQuote {position : Nat} {content : List Char} (noQuote : '"' ∉ content) :
    Lexes position ('"' :: content)
      [⟨.text, String.ofList content, ⟨position, position + content.length + 1⟩⟩]
      (.openQuote position)
  | unusable {position : Nat} {c : Char} {rest : List Char} (isUnusable : IsUnusable c) :
    Lexes position (c :: rest) [] (.unusable c position)
  | lexeme {position : Nat} {consumed rest : List Char} {made : Option (TokenKind × String)}
    {tokens : List Token} {closing : Closing} (first : Lexeme consumed rest made)
    (others : Lexes (position + consumed.length) rest tokens closing) :
    Lexes position (consumed ++ rest)
      (Lexeme.tokens position (position + consumed.length) made ++ tokens) closing

/-! ## Every text is a sequence of lexemes -/

/-- A text in two parts: a longest beginning of characters of a class, and the rest. -/
theorem exists_longest (class_ : Char → Bool) (text : List Char) :
    ∃ run rest, text = run ++ rest ∧ (∀ c ∈ run, class_ c = true) ∧ Stops class_ rest := by
  refine ⟨text.takeWhile class_, text.dropWhile class_, List.takeWhile_append_dropWhile.symm,
    fun c => List.mem_takeWhile_imp, fun c member => ?_⟩
  have notIn := List.head?_dropWhile_not class_ text
  rw [member] at notIn
  exact notIn

/-- The first character decides what a text starts with. -/
theorem exists_lexeme_or (c : Char) (text : List Char) :
    (∃ consumed rest made, c :: text = consumed ++ rest ∧ Lexeme consumed rest made) ∨
      (c = '"' ∧ '"' ∉ text) ∨ IsUnusable c := by
  by_cases isSign : (TokenKind.ofSign? c).isSome
  · obtain ⟨kind, isSign⟩ := Option.isSome_iff_exists.mp isSign
    exact Or.inl ⟨[c], text, _, rfl, .sign isSign⟩
  by_cases separates : isSeparator c
  · exact Or.inl ⟨[c], text, _, rfl, .separator separates⟩
  by_cases isQuote : c = '"'
  · subst isQuote
    obtain ⟨content, rest, rfl, others, stops⟩ := exists_longest (· != '"') text
    have noQuote : '"' ∉ content := fun member => by simpa using others _ member
    cases rest with
    | nil => exact Or.inr (Or.inl ⟨rfl, by simpa using noQuote⟩)
    | cons closing rest =>
      obtain rfl : closing = '"' := by simpa using stops closing rfl
      exact Or.inl ⟨'"' :: content ++ ['"'], rest, _, by simp, .text noQuote⟩
  by_cases isDigit : c.isDigit
  · obtain ⟨digits, rest, rfl, isDigits, stops⟩ := exists_longest Char.isDigit text
    refine Or.inl ⟨c :: digits, rest, _, rfl, .number ⟨List.cons_ne_nil _ _, ?_⟩ stops⟩
    exact List.forall_mem_cons.mpr ⟨isDigit, isDigits⟩
  by_cases startsWord : isWordStart c
  · obtain ⟨word, rest, rfl, isWord, stops⟩ := exists_longest isWordPart text
    exact Or.inl ⟨c :: word, rest, _, rfl, .word ⟨c, word, rfl, startsWord, isWord⟩ stops⟩
  · refine Or.inr (Or.inr ⟨?_, ?_, isQuote, ?_, ?_⟩) <;> simp_all

/-- Every text is a sequence of lexemes up to a closing. -/
theorem exists_lexes (position : Nat) (text : List Char) :
    ∃ tokens closing, Lexes position text tokens closing := by
  -- By the length, since a lexeme takes several characters at once.
  induction size_eq : text.length using Nat.strongRecOn generalizing position text with
  | ind size ih =>
    cases text with
    | nil => exact ⟨[], .complete, .complete⟩
    | cons c text =>
      rcases exists_lexeme_or c text with ⟨consumed, rest, made, same, lexeme⟩ |
        ⟨rfl, noQuote⟩ | isUnusable
      · have shorter : rest.length < size := by
          have positive := List.length_pos_iff.mpr lexeme.consumed_ne_nil
          rw [← size_eq, same, List.length_append]
          omega
        obtain ⟨tokens, closing, others⟩ :=
          ih rest.length shorter (position + consumed.length) rest rfl
        rw [same]
        exact ⟨_, closing, .lexeme lexeme others⟩
      · exact ⟨_, _, .openQuote noQuote⟩
      · exact ⟨[], _, .unusable isUnusable⟩

/-! ## The scanner between two lexemes -/

namespace Scanner

/-- The scanner at the boundary of two lexemes: no token is unfinished. -/
def boundary (position : Nat) (tokens : List Token) : Scanner :=
  ⟨position, tokens.toArray, .nothing⟩

/-- The rest of a scan. -/
def run (scanner : Scanner) (text : List Char) : Except Fault Scan :=
  (scanner.feed text).map finish

theorem run_nil (scanner : Scanner) : scanner.run [] = .ok scanner.finish := rfl

theorem run_cons {scanner next : Scanner} {c : Char} (step : scanner.step c = .ok next)
    (rest : List Char) : scanner.run (c :: rest) = next.run rest := by
  rw [run, feed, step, run]

theorem run_cons_error {scanner : Scanner} {c : Char} {fault : Fault}
    (step : scanner.step c = .error fault) (rest : List Char) :
    scanner.run (c :: rest) = .error fault := by
  rw [run, feed, step]
  rfl

theorem run_cons_congr {scanner other : Scanner} {c : Char}
    (step : scanner.step c = other.step c) (rest : List Char) :
    scanner.run (c :: rest) = other.run (c :: rest) := by
  rw [run, run, feed, feed, step]

theorem push_boundary (position : Nat) (tokens : List Token) (kind : TokenKind)
    (lexeme : String) (start stop : Nat) :
    (boundary position tokens).push kind lexeme start stop =
      boundary position (tokens ++ [⟨kind, lexeme, ⟨start, stop⟩⟩]) := by
  simp [boundary, push]

/-! ### Unfinished tokens

Words, numbers and texts grow in the same way, each by the characters of its class.  A word or
a number is complete as soon as a character of another class comes, and at the end. -/

/-- A kind of unfinished token grows by the characters of a class. -/
def Grows (unfinished : Nat → String → Unfinished) (class_ : Char → Bool) : Prop :=
  ∀ position tokens start lexeme c, class_ c = true →
    (Scanner.mk position tokens (unfinished start lexeme)).step c =
      .ok ⟨position + 1, tokens, unfinished start (lexeme.push c)⟩

theorem grows_word : Grows .word isWordPart := by
  intro position tokens start lexeme c member
  simp [step, member, advance]

theorem grows_number : Grows .number Char.isDigit := by
  intro position tokens start lexeme c member
  simp [step, member, advance]

theorem grows_quoted : Grows .quoted (· != '"') := by
  intro position tokens start lexeme c member
  have notQuote : c ≠ '"' := by simpa using member
  simp [step, notQuote, advance]

/-- An unfinished token takes in a run of characters of its class. -/
theorem Grows.run_append {unfinished : Nat → String → Unfinished} {class_ : Char → Bool}
    (grows : Grows unfinished class_) (position : Nat) (tokens : Array Token) (start : Nat)
    (begun more rest : List Char) (members : ∀ c ∈ more, class_ c = true) :
    (Scanner.mk position tokens (unfinished start (String.ofList begun))).run (more ++ rest) =
      (Scanner.mk (position + more.length) tokens
        (unfinished start (String.ofList (begun ++ more)))).run rest := by
  induction more generalizing position begun with
  | nil => simp
  | cons c more ih =>
    obtain ⟨member, members⟩ := List.forall_mem_cons.mp members
    have pushed : (String.ofList begun).push c = String.ofList (begun ++ [c]) := by
      rw [← String.toList_inj]
      simp
    rw [List.cons_append, run_cons (grows position tokens start _ c member), pushed,
      ih (position + 1) (begun ++ [c]) members, List.append_assoc, List.singleton_append,
      List.length_cons, Nat.add_assoc, Nat.add_comm 1]

/-- A kind of unfinished token is complete at the end and before the characters that are not
of a class. -/
def Settles (unfinished : Nat → String → Unfinished) (class_ : Char → Bool) : Prop :=
  ∀ position tokens start lexeme,
    let scanner := Scanner.mk position tokens (unfinished start lexeme)
    scanner.finish = scanner.complete.finish ∧
      ∀ c, class_ c = false → scanner.step c = scanner.complete.step c

theorem settles_word : Settles .word isWordPart := by
  refine fun position tokens start lexeme => ⟨rfl, fun c notMember => ?_⟩
  simp [step, notMember, complete, push]

theorem settles_number : Settles .number Char.isDigit := by
  refine fun position tokens start lexeme => ⟨rfl, fun c notMember => ?_⟩
  simp [step, notMember, complete, push]

theorem Settles.run_eq {unfinished : Nat → String → Unfinished} {class_ : Char → Bool}
    (settles : Settles unfinished class_) (position : Nat) (tokens : Array Token) (start : Nat)
    (lexeme : String) {rest : List Char} (stops : Stops class_ rest) :
    (Scanner.mk position tokens (unfinished start lexeme)).run rest =
      (Scanner.mk position tokens (unfinished start lexeme)).complete.run rest := by
  obtain ⟨finish_eq, step_eq⟩ := settles position tokens start lexeme
  cases rest with
  | nil => rw [run_nil, run_nil, finish_eq]
  | cons c rest => exact run_cons_congr (step_eq c (stops c rfl)) rest

/-! ### The first character of a lexeme -/

theorem start_sign {position : Nat} {tokens : List Token} {c : Char} {kind : TokenKind}
    (isSign : TokenKind.ofSign? c = some kind) :
    (boundary position tokens).step c = .ok (boundary (position + 1)
      (tokens ++ [⟨kind, String.singleton c, ⟨position, position + 1⟩⟩])) := by
  rw [← push_boundary]
  simp [boundary, step, start, isSign, advance, push]

theorem start_separator {position : Nat} {tokens : List Token} {c : Char}
    (separates : isSeparator c = true) :
    (boundary position tokens).step c = .ok (boundary (position + 1) tokens) := by
  have notSign := (mem_of_isSeparator separates).2
  simp [boundary, step, start, notSign, separates, advance]

theorem start_quote {position : Nat} {tokens : List Token} :
    (boundary position tokens).step '"' =
      .ok ⟨position + 1, tokens.toArray, .quoted position (String.ofList [])⟩ := by
  simp [boundary, step, start, TokenKind.ofSign?, isSeparator, advance]

theorem start_digit {position : Nat} {tokens : List Token} {c : Char}
    (isDigit : c.isDigit = true) :
    (boundary position tokens).step c =
      .ok ⟨position + 1, tokens.toArray, .number position (String.ofList [c])⟩ := by
  have ⟨notSign, notSeparator, notQuote⟩ := of_not_mem_punctuation (not_mem_of_isDigit isDigit)
  rw [← String.singleton_eq_ofList]
  simp [boundary, step, start, notSign, notSeparator, notQuote, isDigit, advance]

theorem start_word {position : Nat} {tokens : List Token} {c : Char}
    (startsWord : isWordStart c = true) :
    (boundary position tokens).step c =
      .ok ⟨position + 1, tokens.toArray, .word position (String.ofList [c])⟩ := by
  have notDigit := isDigit_eq_false_of_isWordStart startsWord
  have ⟨notSign, notSeparator, notQuote⟩ :=
    of_not_mem_punctuation (not_mem_of_isWordStart startsWord)
  rw [← String.singleton_eq_ofList]
  simp [boundary, step, start, notSign, notSeparator, notQuote, notDigit, startsWord, advance]

theorem start_unusable {position : Nat} {tokens : List Token} {c : Char}
    (isUnusable : IsUnusable c) :
    (boundary position tokens).step c = .error (.unknownCharacter c position) := by
  simp [boundary, step, start, isUnusable.notSign, isUnusable.notSeparator,
    isUnusable.notQuote, isUnusable.notDigit, isUnusable.notWordStart]

/-! ### The end of the text -/

theorem finish_boundary (position : Nat) (tokens : List Token) :
    (boundary position tokens).finish =
      ⟨tokens ++ [⟨.endOfInput, "", .atEnd position⟩], none⟩ := by
  simp [finish, complete, boundary, openQuote]

theorem finish_quoted (position : Nat) (tokens : List Token) (start : Nat) (lexeme : String) :
    (Scanner.mk position tokens.toArray (.quoted start lexeme)).finish =
      ⟨tokens ++ [⟨.text, lexeme, ⟨start, position⟩⟩] ++ [⟨.endOfInput, "", .atEnd position⟩],
        some start⟩ := by
  simp [finish, complete, push, openQuote]

/-! ### From boundary to boundary -/

/-- The scanner reads exactly one lexeme from one boundary to the next. -/
theorem run_lexeme {consumed rest : List Char} {made : Option (TokenKind × String)}
    (lexeme : Lexeme consumed rest made) (position : Nat) (tokens : List Token) :
    (boundary position tokens).run (consumed ++ rest) =
      (boundary (position + consumed.length)
        (tokens ++ Lexeme.tokens position (position + consumed.length) made)).run rest := by
  cases lexeme with
  | separator separates =>
    rw [Lexeme.tokens, List.append_nil]
    exact run_cons (start_separator separates) rest
  | sign isSign => exact run_cons (start_sign isSign) rest
  | number isDigits stops =>
    obtain ⟨nonempty, members⟩ := isDigits
    obtain ⟨first, more, rfl⟩ := List.exists_cons_of_ne_nil nonempty
    obtain ⟨isDigit, members⟩ := List.forall_mem_cons.mp members
    -- The first digit starts a token and the others extend it; what follows completes it, but
    -- is not read by that.
    rw [List.cons_append, run_cons (start_digit isDigit),
      grows_number.run_append _ _ _ _ _ _ members, settles_number.run_eq _ _ _ _ stops,
      Lexeme.tokens, ← push_boundary, List.length_cons, Nat.add_assoc, Nat.add_comm 1]
    rfl
  | word isWord stops =>
    obtain ⟨first, more, rfl, startsWord, members⟩ := isWord
    rw [List.cons_append, run_cons (start_word startsWord),
      grows_word.run_append _ _ _ _ _ _ members, settles_word.run_eq _ _ _ _ stops,
      Lexeme.tokens, ← push_boundary, List.length_cons, Nat.add_assoc, Nat.add_comm 1]
    rfl
  | @text content _ noQuote =>
    have members : ∀ c ∈ content, (c != '"') = true := by
      intro c member
      exact bne_iff_ne.mpr fun isQuote => noQuote (isQuote ▸ member)
    have closes (position : Nat) (scanned : Array Token) (start : Nat) (lexeme : String) :
        (Scanner.mk position scanned (.quoted start lexeme)).step '"' =
          .ok ⟨position + 1, scanned.push ⟨.text, lexeme, ⟨start, position + 1⟩⟩, .nothing⟩ := by
      simp [step, push, advance]
    rw [List.cons_append, List.cons_append, List.append_assoc, run_cons start_quote,
      grows_quoted.run_append _ _ _ _ _ _ members, List.singleton_append,
      run_cons (closes _ _ _ _), Lexeme.tokens, ← push_boundary, List.length_cons,
      List.length_append, Nat.add_right_comm position 1]
    rfl

end Scanner

/-! ## Scans -/

/-- What a scan makes of a closing, after the given tokens and at the given length. -/
def Closing.result (closing : Closing) (tokens : List Token) (length : Nat) : Except Fault Scan :=
  match closing with
  | complete => .ok ⟨tokens ++ [⟨.endOfInput, "", .atEnd length⟩], none⟩
  | openQuote start => .ok ⟨tokens ++ [⟨.endOfInput, "", .atEnd length⟩], some start⟩
  | unusable symbol position => .error (.unknownCharacter symbol position)

open Scanner in
/-- The scanner follows the sequence of lexemes: from a boundary on, it finds the tokens and
the closing of the sequence. -/
theorem Lexes.run_eq {position : Nat} {text : List Char} {tokens : List Token} {closing : Closing}
    (lexes : Lexes position text tokens closing) (before : List Token) :
    (boundary position before).run text =
      closing.result (before ++ tokens) (position + text.length) := by
  induction lexes generalizing before with
  | complete =>
    rw [run_nil, finish_boundary, List.append_nil]
    rfl
  | @openQuote position content noQuote =>
    have members : ∀ c ∈ content, (c != '"') = true := by
      intro c member
      exact bne_iff_ne.mpr fun isQuote => noQuote (isQuote ▸ member)
    rw [run_cons start_quote, ← List.append_nil content,
      grows_quoted.run_append _ _ _ _ _ _ members, run_nil, finish_quoted, List.append_nil,
      List.length_cons, Nat.add_right_comm position 1]
    rfl
  | unusable isUnusable => exact run_cons_error (start_unusable isUnusable) _
  | lexeme first others ih =>
    rw [run_lexeme first, ih, List.append_assoc, List.length_append, Nat.add_assoc]

/-- A source text has the scan of its sequence of lexemes. -/
theorem Lexes.scan_eq {source : String} {tokens : List Token} {closing : Closing}
    (lexes : Lexes 0 source.toList tokens closing) :
    Token.scan source = closing.result tokens source.length := by
  have run := lexes.run_eq []
  rw [Nat.zero_add, String.length_toList, List.nil_append] at run
  exact run

/-- Every scan comes from a sequence of lexemes. -/
theorem exists_lexes_of_scan {source : String} {result : Except Fault Scan}
    (scan : Token.scan source = result) :
    ∃ tokens closing, Lexes 0 source.toList tokens closing ∧
      closing.result tokens source.length = result := by
  obtain ⟨tokens, closing, lexes⟩ := exists_lexes 0 source.toList
  exact ⟨tokens, closing, lexes, lexes.scan_eq.symm.trans scan⟩

end PrintLang
