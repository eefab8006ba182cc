import PrintLang.Proofs.Relocation
import PrintLang.Proofs.Token.Segmentation

/-!
# Lexemes of a concatenation

The lexemes of a text followed by another one are those of the first text and, at moved
positions, those of the second.  A word or a number at the end of the first text could grow
into the second one, and an open quote would swallow it.  What the last token of the first text
is therefore restricts how the second one may start.  After a semicolon, with which every
program ends, anything may follow.

## Main Definitions

* `Closing.shift` — how a sequence of lexemes ends, further to the right
* `Seam` — a text that does not lengthen the last of the tokens before it
* `EndsStatement` — a list of tokens that is empty or ends with a semicolon

## Main Statements

* `Lexes.shift` — the lexemes of a text that starts later
* `Lexes.append` — the lexemes of a text followed by another one
* `Lexes.scan_append` — the scan of a text followed by another one
-/

namespace PrintLang

/-! ## Starting later -/

/-- How a sequence of lexemes ends if it starts later. -/
def Closing.shift (count : Nat) : Closing → Closing
  | complete => complete
  | openQuote start => openQuote (start + count)
  | unusable symbol position => unusable symbol (position + count)

theorem Lexeme.tokens_shift (start stop count : Nat) (made : Option (TokenKind × String)) :
    Lexeme.tokens (start + count) (stop + count) made =
      (Lexeme.tokens start stop made).map (Token.relocate (.shift count)) := by
  cases made <;> rfl

theorem Lexes.shift {position : Nat} {text : List Char} {tokens : List Token}
    {closing : Closing} (lexes : Lexes position text tokens closing) (count : Nat) :
    Lexes (position + count) text (tokens.map (Token.relocate (.shift count)))
      (closing.shift count) := by
  induction lexes with
  | complete => exact .complete
  | @openQuote position content noQuote =>
    have shifted : Lexes (position + count) _ _ _ := .openQuote noQuote
    rw [Nat.add_right_comm position count, Nat.add_right_comm _ count] at shifted
    exact shifted
  | unusable isUnusable => exact .unusable isUnusable
  | lexeme first others ih =>
    rw [Nat.add_right_comm] at ih
    rw [List.map_append, ← Lexeme.tokens_shift, Nat.add_right_comm]
    exact .lexeme first ih

/-! ## Something following -/

/-- The kinds of words: the four keywords and names. -/
def TokenKind.isWord : TokenKind → Bool
  | varWord | printWord | trueWord | falseWord | name => true
  | _ => false

theorem TokenKind.isWord_ofWord (word : String) : (ofWord word).isWord = true := by
  unfold ofWord
  split_ifs <;> rfl

/-- A text that follows a token of a kind does not lengthen it. -/
structure TokenKind.StopsBefore (kind : TokenKind) (text : List Char) : Prop where
  word : kind.isWord = true → Stops isWordPart text
  number : kind = .number → Stops Char.isDigit text

/-- A text that follows some tokens does not lengthen the last one. -/
def Seam (tokens : List Token) (text : List Char) : Prop :=
  ∀ token ∈ tokens.getLast?, token.kind.StopsBefore text

/-- There is no token, or the last one is a semicolon. -/
def EndsStatement (tokens : List Token) : Prop :=
  ∀ token ∈ tokens.getLast?, token.kind = .semicolon

/-- Nothing lengthens a semicolon. -/
theorem EndsStatement.seam {tokens : List Token} (ends : EndsStatement tokens)
    (text : List Char) : Seam tokens text := by
  intro token member
  rw [ends token member]
  exact ⟨nofun, nofun⟩

/-- A sign or a separator lengthens no token. -/
theorem seam_of_mem_punctuation {c : Char} (member : c ∈ punctuation)
    (notWordPart : isWordPart c = false) (tokens : List Token) (text : List Char) :
    Seam tokens (c :: text) := by
  refine fun _ _ => ⟨fun _ other same => ?_, fun _ other same => ?_⟩
  · obtain rfl := Option.some.inj same
    exact notWordPart
  · obtain rfl := Option.some.inj same
    exact (class_eq_false_of_mem member).2

theorem Stops.append {class_ : Char → Bool} {rest more : List Char} (stops : Stops class_ rest)
    (seam : rest = [] → Stops class_ more) : Stops class_ (rest ++ more) := by
  cases rest with
  | nil => exact seam rfl
  | cons c rest => exact stops

/-- A lexeme stays what it is if something follows the text, unless it is at the very end and
goes on with it. -/
theorem Lexeme.append {consumed rest more : List Char} {made : Option (TokenKind × String)}
    (lexeme : Lexeme consumed rest made)
    (seam : rest = [] → ∀ kind text, made = some (kind, text) → kind.StopsBefore more) :
    Lexeme consumed (rest ++ more) made := by
  cases lexeme with
  | separator separates => exact .separator separates
  | sign isSign => exact .sign isSign
  | number isDigits stops =>
    exact .number isDigits (stops.append fun atEnd => (seam atEnd _ _ rfl).number rfl)
  | word isWord stops =>
    have isWord_eq := TokenKind.isWord_ofWord (String.ofList consumed)
    exact .word isWord (stops.append fun atEnd => (seam atEnd _ _ rfl).word isWord_eq)
  | text noQuote => exact .text noQuote

/-- No lexemes are left at the end. -/
theorem Lexes.eq_nil_of_complete {position : Nat} {tokens : List Token}
    (lexes : Lexes position [] tokens .complete) : tokens = [] := by
  generalize text_eq : ([] : List Char) = text at lexes
  cases lexes with
  | complete => rfl
  | lexeme first others =>
    obtain ⟨consumed_eq, -⟩ := List.append_eq_nil_iff.mp text_eq.symm
    exact absurd consumed_eq first.consumed_ne_nil

/-- The lexemes of a text and those of what follows, if that does not lengthen the last token in
case it reaches so far. -/
theorem Lexes.append_of_reaching {position : Nat} {text more : List Char}
    {tokens others : List Token} {closing : Closing}
    (lexes : Lexes position text tokens .complete)
    (stops : ∀ token ∈ tokens.getLast?, token.span.stop = position + text.length →
      token.kind.StopsBefore more)
    (otherLexes : Lexes (position + text.length) more others closing) :
    Lexes position (text ++ more) (tokens ++ others) closing := by
  generalize complete_eq : Closing.complete = first at lexes
  induction lexes with
  | complete => exact otherLexes
  | openQuote | unusable => cases complete_eq
  | @lexeme position consumed rest made tokens first lexeme lexes ih =>
    subst complete_eq
    rw [List.length_append, ← Nat.add_assoc] at otherLexes stops
    have restStops : ∀ token ∈ tokens.getLast?,
        token.span.stop = position + consumed.length + rest.length →
          token.kind.StopsBefore more := by
      intro token member
      refine stops token ?_
      rw [List.getLast?_append, Option.mem_def.mp member]
      rfl
    have longer : Lexeme consumed (rest ++ more) made :=
      lexeme.append fun atEnd kind text made_eq => ?_
    · rw [List.append_assoc, List.append_assoc]
      exact .lexeme longer (ih restStops otherLexes rfl)
    · -- A lexeme at the very end makes the last token, if it makes one.
      subst atEnd made_eq
      obtain rfl := lexes.eq_nil_of_complete
      exact stops _ rfl rfl

/-- The lexemes of a text and those of what follows, if that does not lengthen the last token. -/
theorem Lexes.append {position : Nat} {text more : List Char} {tokens others : List Token}
    {closing : Closing} (lexes : Lexes position text tokens .complete) (seam : Seam tokens more)
    (otherLexes : Lexes (position + text.length) more others closing) :
    Lexes position (text ++ more) (tokens ++ others) closing :=
  lexes.append_of_reaching (fun token isLast _ => seam token isLast) otherLexes

/-- After an open quote there is a text at the end. -/
theorem Lexes.exists_getLast?_of_openQuote {position start : Nat} {text : List Char}
    {tokens : List Token} (lexes : Lexes position text tokens (.openQuote start)) :
    ∃ token, tokens.getLast? = some token ∧ token.kind = .text := by
  generalize closing_eq : Closing.openQuote start = closing at lexes
  induction lexes with
  | complete | unusable => cases closing_eq
  | openQuote => exact ⟨_, rfl, rfl⟩
  | lexeme first others ih =>
    obtain ⟨token, last, isText⟩ := ih closing_eq
    refine ⟨token, ?_, isText⟩
    rw [List.getLast?_append, last]
    rfl

/-- No quote is open after a statement. -/
theorem Lexes.closing_eq_complete {position : Nat} {text : List Char} {tokens : List Token}
    {closing : Closing} (lexes : Lexes position text tokens closing)
    (readable : closing.Readable) (ends : EndsStatement tokens) : closing = .complete := by
  cases closing with
  | complete => rfl
  | openQuote start =>
    obtain ⟨token, last, isText⟩ := lexes.exists_getLast?_of_openQuote
    cases isText.symm.trans (ends token last)
  | unusable symbol position => exact absurd rfl (readable symbol position)

/-- The scan of a text that ends with a statement, followed by another text. -/
theorem Lexes.scan_append {first second : String} {tokens others : List Token}
    {closing : Closing} (lexes : Lexes 0 first.toList tokens .complete)
    (ends : EndsStatement tokens) (otherLexes : Lexes 0 second.toList others closing) :
    Token.scan (first ++ second) =
      (closing.shift first.length).result
        (tokens ++ others.map (Token.relocate (.shift first.length)))
        (first ++ second).length := by
  have shifted := otherLexes.shift first.length
  rw [Nat.zero_add] at shifted
  refine Lexes.scan_eq ?_
  rw [String.toList_append]
  refine lexes.append (ends.seam _) ?_
  rwa [Nat.zero_add, String.length_toList]

end PrintLang
