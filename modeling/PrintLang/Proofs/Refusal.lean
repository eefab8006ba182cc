import PrintLang.Proofs.Grammar.Reading
import PrintLang.Proofs.Token.Segmentation

/-!
# Texts that are no programs

A text is refused for one of three reasons: one of its characters starts no token, one of its tokens
stands where no statement goes on with it, or it ends within a statement.  The fault says which, and
points at the character, at the token or at the end of the last token.

A token is refused by the place that it comes to, so the faults of all places are looked at first.
There is one place that refuses an earlier token than the one it comes to: a name at the start of a
statement is held against the text as soon as no equals sign follows it.

## Main Definitions

* `Token.Refused` — the faults of a list of tokens

## Main Statements

* `Token.exists_symbol_of_scan` — a scan fails at a character of the source
* `Token.segmentation_of_scan` — the tokens of a scan stand in the source
* `Place.exists_complaint_of_step` — what a place refuses
* `Reader.exists_complaint_of_feed` — what a reader refuses is one of its tokens
* `Token.refused_of_ofTokens` — reading fails at a token, or at the end of the last one
-/

namespace PrintLang

/-! ## Characters -/

/-- The character at which a sequence of lexemes breaks off. -/
theorem Lexes.getElem?_of_unusable {text rest : List Char} {start position : Nat}
    {tokens : List Token} {symbol : Char}
    (lexes : Lexes start rest tokens (.unusable symbol position))
    (drop_eq : text.drop start = rest) : text[position]? = some symbol := by
  generalize closing_eq : Closing.unusable symbol position = closing at lexes
  induction lexes with
  | complete | openQuote => cases closing_eq
  | unusable =>
    cases closing_eq
    rw [← List.head?_drop, drop_eq, List.head?_cons]
  | lexeme _ _ ih => exact ih (drop_add_length drop_eq) closing_eq

/-- A scan that fails does so at a character of the source. -/
theorem Token.exists_symbol_of_scan {source : String} {fault : Fault}
    (scans : Token.scan source = .error fault) :
    ∃ symbol position, fault = .unknownCharacter symbol position ∧
      source.toList[position]? = some symbol := by
  obtain ⟨tokens, closing, lexes, result⟩ := exists_lexes_of_scan scans
  cases closing with
  | complete | openQuote => cases result
  | unusable symbol position =>
    cases result
    exact ⟨symbol, position, rfl, lexes.getElem?_of_unusable List.drop_zero⟩

/-! ## Tokens -/

theorem Token.beforeEnd_eq_self {tokens : List Token}
    (noEnd : ∀ token ∈ tokens, token.kind ≠ .endOfInput) : Token.beforeEnd tokens = tokens := by
  rw [beforeEnd, List.takeWhile_eq_self_iff]
  simpa using noEnd

theorem Token.beforeEnd_concat {tokens : List Token} {last : Token}
    (noEnd : ∀ token ∈ tokens, token.kind ≠ .endOfInput) (isEnd : last.kind = .endOfInput) :
    Token.beforeEnd (tokens ++ [last]) = tokens := by
  rw [beforeEnd, List.takeWhile_append_of_pos (by simpa using noEnd)]
  simp [isEnd]

theorem Token.kind_ne_of_mem_beforeEnd (tokens : List Token) :
    ∀ token ∈ Token.beforeEnd tokens, token.kind ≠ .endOfInput := by
  intro token member
  simpa using List.mem_takeWhile_imp member

/-- The tokens of a scan stand in the source. -/
theorem Token.segmentation_of_scan {source : String} {scan : Scan}
    (scans : Token.scan source = .ok scan) :
    Segmentation 0 source.toList (Token.beforeEnd scan.tokens) := by
  obtain ⟨tokens, closing, lexes, readable, tokens_eq⟩ := exists_readable_of_scan scans
  have segmentation := lexes.segmentation readable List.drop_zero
  rwa [tokens_eq, Token.beforeEnd_concat segmentation.kind_ne_endOfInput rfl]

/-- Why a list of tokens is no program: one of them is refused, or the end of the last one. -/
inductive Token.Refused (tokens : List Token) : Fault → Prop
  /-- The complaint is about a token. -/
  | here {token : Token} (complaint : Complaint) (member : token ∈ tokens) :
    Refused tokens (complaint.about token)
  /-- The complaint is about what is missing after the last token. -/
  | atEnd {last : Token} (complaint : Complaint) (isLast : tokens.getLast? = some last) :
    Refused tokens (complaint.fault (.atEnd last.span.stop) .endOfInput "")

/-- Whatever is refused is refused while the tokens are read. -/
theorem Token.Refused.stage_eq {tokens : List Token} {fault : Fault}
    (refused : Refused tokens fault) : fault.cause.stage = .parse := by
  cases refused <;> rfl

namespace Place

theorem eq_of_leaf?_eq_error {token : Token} {fault : Fault}
    (leaf_eq : leaf? token = .error fault) : fault = Complaint.numeral.about token := by
  unfold leaf? at leaf_eq
  split at leaf_eq
  · split at leaf_eq
    · cases leaf_eq
    · exact (Except.error.inj leaf_eq).symm
  all_goals cases leaf_eq

/-- A place refuses the token that it comes to, or the name that it stands after. -/
theorem exists_complaint_of_step {place : Place} {token : Token} {fault : Fault}
    (step_eq : place.step token = .error fault) :
    ∃ complaint : Complaint, fault = complaint.about token ∨
      ∃ name, place = .afterName name ∧ fault = complaint.about name := by
  unfold step at step_eq
  cases place with
  | start | afterVar | afterVarName | operator =>
    -- Only the last branch is a refusal.
    dsimp only at step_eq
    split at step_eq
    all_goals cases step_eq
    exact ⟨_, Or.inl rfl⟩
  | afterName name =>
    dsimp only at step_eq
    split at step_eq
    all_goals cases step_eq
    exact ⟨_, Or.inr ⟨name, rfl, rfl⟩⟩
  | operand =>
    dsimp only at step_eq
    split at step_eq
    · cases step_eq
    · exact ⟨_, Or.inl (Except.error.inj step_eq).symm⟩
    · next leaf_eq =>
      cases step_eq
      exact ⟨_, Or.inl (eq_of_leaf?_eq_error leaf_eq)⟩

/-- The end of the tokens is refused as such, or the name before it is. -/
theorem refuseEnd_eq (place : Place) (stop : Nat) :
    place.refuseEnd stop = place.complaint.fault (.atEnd stop) .endOfInput "" ∨
      ∃ name, place = .afterName name ∧ place.refuseEnd stop = place.complaint.about name := by
  cases place with
  | afterName name => exact Or.inr ⟨name, rfl, rfl⟩
  | start | afterVar | afterVarName | operand | operator => exact Or.inl rfl

end Place

namespace Reader

/-- A reader that stands after a name has read it last, at the start of a statement. -/
theorem Knows.eq_of_afterName {reader : Reader} {tokens : List Token}
    {statements : List Statement} {fragment : Fragment} {name : Token}
    (knows : reader.Knows tokens statements fragment) (place_eq : reader.place = .afterName name) :
    tokens = statements.flatMap Statement.tokens ++ [name] ∧ name.kind = .name := by
  rw [knows.place_eq] at place_eq
  rw [knows.tokens_eq]
  cases fragment with
  | afterName piece =>
    cases place_eq
    exact ⟨rfl, rfl⟩
  | start | afterVar | afterVarName | beforeOperand | afterOperand => cases place_eq

theorem Knows.mem_of_afterName {reader : Reader} {tokens : List Token}
    {statements : List Statement} {fragment : Fragment} {name : Token}
    (knows : reader.Knows tokens statements fragment) (place_eq : reader.place = .afterName name) :
    name ∈ tokens := by
  rw [(knows.eq_of_afterName place_eq).1]
  exact List.mem_append_right _ (List.mem_singleton_self _)

/-- Tokens on which reading fails, up to the one that it comes to. -/
theorem exists_step_of_feed {reader : Reader} {tokens : List Token} {fault : Fault}
    (fed : reader.feed tokens = .error fault) :
    ∃ before token after middle, tokens = before ++ token :: after ∧
      reader.feed before = .ok middle ∧ middle.place.step token = .error fault := by
  induction tokens generalizing reader with
  | nil => cases fed
  | cons token rest ih =>
    rw [feed] at fed
    split at fed
    · next next step_eq =>
      obtain ⟨before, refused, after, middle, rfl, beforeFed, refuses⟩ := ih fed
      refine ⟨token :: before, refused, after, middle, rfl, ?_, refuses⟩
      rw [feed, step_eq]
      exact beforeFed
    · next step_eq =>
      refine ⟨[], token, rest, reader, rfl, rfl, ?_⟩
      cases fed
      rw [step] at step_eq
      split at step_eq
      · cases step_eq
      · cases step_eq
      · next refuses =>
        cases step_eq
        exact refuses

/-- Reading tokens fails at one of them. -/
theorem exists_complaint_of_feed {tokens : List Token} {fault : Fault}
    (fed : initial.feed tokens = .error fault) :
    ∃ complaint : Complaint, ∃ token ∈ tokens, fault = complaint.about token := by
  obtain ⟨before, token, after, middle, rfl, beforeFed, refuses⟩ := exists_step_of_feed fed
  obtain ⟨statements, fragment, knows⟩ := exists_knows_of_feed beforeFed
  obtain ⟨complaint, rfl | ⟨name, place_eq, rfl⟩⟩ := Place.exists_complaint_of_step refuses
  · exact ⟨complaint, token, List.mem_append_right _ List.mem_cons_self, rfl⟩
  · exact ⟨complaint, name, List.mem_append_left _ (knows.mem_of_afterName place_eq), rfl⟩

theorem stop_eq_of_step {reader next : Reader} {token : Token}
    (step_eq : reader.step token = .ok next) : next.stop = token.span.stop := by
  rw [step] at step_eq
  split at step_eq
  all_goals cases step_eq
  all_goals rfl

/-- A reader that has left its first place stands at the end of the last token. -/
theorem exists_getLast?_of_feed {reader : Reader} {tokens : List Token}
    (fed : initial.feed tokens = .ok reader) (left : reader.place ≠ .start) :
    ∃ last, tokens.getLast? = some last ∧ reader.stop = last.span.stop := by
  rcases tokens.eq_nil_or_concat' with rfl | ⟨before, last, rfl⟩
  · cases fed
    exact absurd rfl left
  · refine ⟨last, List.getLast?_concat, ?_⟩
    rw [feed_append] at fed
    split at fed
    · rw [feed] at fed
      split at fed
      · next step_eq =>
        cases fed
        exact stop_eq_of_step step_eq
      · cases fed
    · cases fed

end Reader

/-- Tokens that are no program are refused for one of them, or at the end of the last one. -/
theorem Token.refused_of_ofTokens {tokens : List Token} {fault : Fault}
    (refused : Tree.ofTokens tokens = .error fault) :
    Refused (Token.beforeEnd tokens) fault := by
  rw [Tree.ofTokens] at refused
  split at refused
  · next reader fed =>
    obtain ⟨statements, fragment, knows⟩ := Reader.exists_knows_of_feed fed
    have left : reader.place ≠ .start := by
      intro atStart
      rw [Reader.finish, atStart] at refused
      cases refused
    obtain ⟨last, isLast, stop_eq⟩ := Reader.exists_getLast?_of_feed fed left
    have fault_eq : fault = reader.place.refuseEnd reader.stop := by
      rw [Reader.finish] at refused
      split at refused
      · cases refused
      · exact (Except.error.inj refused).symm
    rcases reader.place.refuseEnd_eq reader.stop with end_eq | ⟨name, place_eq, end_eq⟩
    · rw [fault_eq, end_eq, stop_eq]
      exact .atEnd _ isLast
    · rw [fault_eq, end_eq]
      exact .here _ (knows.mem_of_afterName place_eq)
  · next other fed =>
    cases refused
    obtain ⟨complaint, token, member, rfl⟩ := Reader.exists_complaint_of_feed fed
    exact .here complaint member

end PrintLang
