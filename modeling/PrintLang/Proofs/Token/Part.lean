import PrintLang.Proofs.Grammar.Derivation
import PrintLang.Proofs.Token.Concatenation

/-!
# Lexemes of a part

Some neighbouring tokens of a text reach from the start of the first one to the end of the last
one.  The characters there are a text of their own, and its lexemes are those tokens: where a text
is cut between two lexemes, neither becomes longer or shorter, since what follows is only taken
away.

Where a text starts is of no importance for its lexemes.  A part can therefore be read from the
position zero on, like any source text.

## Main Statements

* `Lexes.exists_from`, `Lexes.exists_upTo` — the lexemes from a token on, and up to one
* `Lexes.slice` — the lexemes of the text that some tokens reach over
* `Lexes.exists_shift` — the lexemes of a text that starts earlier
-/

namespace PrintLang

variable {position : Nat} {text : List Char} {first after tokens part : List Token}

/-! ## Cutting -/

theorem Stops.shorten {class_ : Char → Bool} {rest more : List Char}
    (stops : Stops class_ (rest ++ more)) : Stops class_ rest := by
  cases rest with
  | nil => exact fun c member => absurd member (by simp)
  | cons c rest => exact stops

/-- A lexeme stays what it is if less follows. -/
theorem Lexeme.shorten {consumed rest more : List Char} {made : Option (TokenKind × String)}
    (lexeme : Lexeme consumed (rest ++ more) made) : Lexeme consumed rest made := by
  cases lexeme with
  | separator separates => exact .separator separates
  | sign isSign => exact .sign isSign
  | number isDigits stops => exact .number isDigits stops.shorten
  | word isWord stops => exact .word isWord stops.shorten
  | text noQuote => exact .text noQuote

/-- From the start of a token on there are the lexemes of this token and of those after it. -/
theorem Lexes.exists_from {token : Token}
    (lexes : Lexes position text (first ++ token :: after) .complete) :
    ∃ left rest, text = left ++ rest ∧ token.span.start = position + left.length ∧
      Lexes token.span.start rest (token :: after) .complete := by
  generalize closing_eq : Closing.complete = closing at lexes
  generalize tokens_eq : first ++ token :: after = tokens at lexes
  induction lexes generalizing first with
  | openQuote | unusable => cases closing_eq
  | complete => simp at tokens_eq
  | @lexeme position consumed rest made others closing lexeme lexes ih =>
    subst closing_eq
    -- The token is found further on, unless it is made by the first lexeme.
    have later {first : List Token} (others_eq : first ++ token :: after = others) :
        ∃ left right, consumed ++ rest = left ++ right ∧
          token.span.start = position + left.length ∧
          Lexes token.span.start right (token :: after) .complete := by
      obtain ⟨left, right, rfl, start_eq, fromToken⟩ := ih rfl others_eq
      refine ⟨consumed ++ left, right, (List.append_assoc _ _ _).symm, ?_, fromToken⟩
      rw [start_eq, List.length_append, Nat.add_assoc]
    cases made with
    | none => exact later tokens_eq
    | some pair =>
      cases first with
      | cons other first => exact later (List.cons.inj tokens_eq).2
      | nil =>
        obtain ⟨rfl, rfl⟩ := List.cons.inj tokens_eq
        exact ⟨[], consumed ++ rest, rfl, rfl, .lexeme lexeme lexes⟩

/-- Up to the end of a token there are its lexeme and those before it. -/
theorem Lexes.exists_upTo {last : Token}
    (lexes : Lexes position text (first ++ last :: after) .complete) :
    ∃ upTo right, text = upTo ++ right ∧ last.span.stop = position + upTo.length ∧
      Lexes position upTo (first ++ [last]) .complete := by
  generalize closing_eq : Closing.complete = closing at lexes
  generalize tokens_eq : first ++ last :: after = tokens at lexes
  induction lexes generalizing first with
  | openQuote | unusable => cases closing_eq
  | complete => simp at tokens_eq
  | @lexeme position consumed rest made others closing lexeme lexes ih =>
    subst closing_eq
    have later {first : List Token} (others_eq : first ++ last :: after = others) :
        ∃ upTo right, consumed ++ rest = upTo ++ right ∧
          last.span.stop = position + upTo.length ∧
          Lexes position upTo (Lexeme.tokens position (position + consumed.length) made ++
            (first ++ [last])) .complete := by
      obtain ⟨upTo, right, rfl, stop_eq, toToken⟩ := ih rfl others_eq
      refine ⟨consumed ++ upTo, right, (List.append_assoc _ _ _).symm, ?_, ?_⟩
      · rw [stop_eq, List.length_append, Nat.add_assoc]
      · exact .lexeme lexeme.shorten toToken
    cases made with
    | none => exact later tokens_eq
    | some pair =>
      cases first with
      | cons other first =>
        obtain ⟨rfl, others_eq⟩ := List.cons.inj tokens_eq
        exact later others_eq
      | nil =>
        obtain ⟨rfl, -⟩ := List.cons.inj tokens_eq
        have alone : Lexeme consumed ([] ++ rest) (some pair) := lexeme
        have only : Lexes position (consumed ++ []) _ .complete := .lexeme alone.shorten .complete
        rw [List.append_nil] at only
        exact ⟨consumed, rest, rfl, rfl, only⟩

/-! ## The text of some tokens -/

/-- Where some neighbouring tokens of a text reach, there are their lexemes and no others. -/
theorem Lexes.slice (lexes : Lexes 0 text tokens .complete) (isPart : part <:+: tokens)
    (nonempty : part ≠ []) :
    Lexes (Token.reach part).start ((Token.reach part).slice text) part .complete := by
  obtain ⟨before, after, rfl⟩ := isPart
  obtain ⟨token, tail, part_eq⟩ := List.exists_cons_of_ne_nil nonempty
  have fromHere : Lexes 0 text (before ++ token :: (tail ++ after)) .complete := by
    rw [part_eq, List.append_assoc] at lexes
    exact lexes
  obtain ⟨left, rest, rfl, start_eq, fromHere⟩ := fromHere.exists_from
  obtain ⟨front, last, part_eq'⟩ := part.eq_nil_or_concat'.resolve_left nonempty
  have upToHere : Lexes token.span.start rest (front ++ last :: after) .complete := by
    rw [← List.cons_append, ← part_eq, part_eq', List.append_assoc] at fromHere
    exact fromHere
  obtain ⟨middle, right, rfl, stop_eq, here⟩ := upToHere.exists_upTo
  have reach_eq := Token.reach_of_ends part_eq part_eq'
  have slice_eq : (Token.reach part).slice (left ++ (middle ++ right)) = middle := by
    have drop_eq : (left ++ (middle ++ right)).drop token.span.start = middle ++ right := by
      rw [start_eq, Nat.zero_add, List.drop_left]
    rw [reach_eq, stop_eq]
    exact Span.slice_of_drop_eq drop_eq
  rw [slice_eq, reach_eq, part_eq']
  exact here

/-! ## Starting earlier -/

/-- The lexemes of a text come from those of the same text at an earlier position. -/
theorem Lexes.exists_shift {count : Nat} (lexes : Lexes (position + count) text tokens .complete) :
    ∃ original, Lexes position text original .complete ∧
      original.map (Token.relocate (.shift count)) = tokens := by
  generalize closing_eq : Closing.complete = closing at lexes
  generalize later_eq : position + count = later at lexes
  induction lexes generalizing position with
  | openQuote | unusable => cases closing_eq
  | complete => exact ⟨[], .complete, rfl⟩
  | @lexeme later consumed rest made others closing lexeme lexes ih =>
    subst closing_eq later_eq
    obtain ⟨original, earlier, rfl⟩ := ih rfl (Nat.add_right_comm position consumed.length count)
    refine ⟨_, .lexeme lexeme earlier, ?_⟩
    rw [List.map_append, ← Lexeme.tokens_shift, Nat.add_right_comm]

end PrintLang
