import PrintLang.Proofs.Refusal
import PrintLang.Proofs.Relocation

/-!
# Reading moved tokens

A list of moved tokens is read as the list is, with all spans moved, and the same holds if the
reader has other statements behind it.  So whatever is known of the reading of some tokens is
known of their reading in another place, whether it succeeds or not.

The one thing that is not moved along is what stands at the end of the tokens, since there is no
token.  The fault is at the last character before the end of the last token, wherever that end is
moved to.

## Main Definitions

* `Reader.conclude` — the statements of all tokens, from a reader on
* `Relocation.refusal`, `Relocation.reading` — the fault and the result of reading, moved

## Main Statements

* `Relocation.refusal_shift` — behind other text, faults are found further to the right
* `Reader.conclude_relocate` — reading moved tokens after other statements
* `Tree.ofTokens_relocate` — reading a list of moved tokens
-/

namespace PrintLang

/-! ## What is moved -/

namespace Relocation

variable (relocation : Relocation)

/-- The fault of reading, once the tokens have been moved.  What is missing at the end is missing
at the last character before the end, wherever the end is moved to. -/
def refusal (fault : Fault) : Fault :=
  match fault.cause with
  | .unexpectedToken _ _ .endOfInput _ =>
    { fault with span := .atEnd (relocation.stop fault.span.stop) }
  | _ => fault.relocate relocation

/-- The result of reading, once the tokens have been moved, after other statements. -/
def reading (before : List Tree) : Except Fault (List Tree) → Except Fault (List Tree)
  | .ok statements => .ok (before ++ statements.map (Tree.relocate relocation))
  | .error fault => .error (relocation.refusal fault)

theorem refusal_about (complaint : Complaint) {token : Token} (notEnd : token.kind ≠ .endOfInput) :
    relocation.refusal (complaint.about token) =
      complaint.about (token.relocate relocation) := by
  obtain ⟨kind, lexeme, span⟩ := token
  cases kind with
  | endOfInput => exact absurd rfl notEnd
  | _ => rfl

theorem refusal_atEnd (complaint : Complaint) (stop : Nat) :
    relocation.refusal (complaint.fault (.atEnd stop) .endOfInput "") =
      complaint.fault (.atEnd (relocation.stop stop)) .endOfInput "" := rfl

theorem cause_refusal (fault : Fault) : (relocation.refusal fault).cause = fault.cause := by
  unfold refusal
  split <;> rfl

theorem help_refusal (fault : Fault) : (relocation.refusal fault).help = fault.help := by
  unfold refusal
  split <;> rfl

end Relocation

variable (relocation : Relocation)

/-! ## From a reader on -/

namespace Reader

/-- The statements of all tokens, if some of them have been read already. -/
def conclude (reader : Reader) (tokens : List Token) : Except Fault (List Tree) :=
  match reader.feed tokens with
  | .ok last => last.finish
  | .error fault => .error fault

theorem conclude_append {reader next : Reader} {first : List Token}
    (fed : reader.feed first = .ok next) (second : List Token) :
    reader.conclude (first ++ second) = next.conclude second := by
  rw [conclude, feed_append, fed]
  rfl

/-- At the start of a statement it does not matter where the last token ends. -/
theorem conclude_start (statements : Array Tree) (stop other : Nat) (tokens : List Token) :
    (Reader.mk .start statements stop).conclude tokens =
      (Reader.mk .start statements other).conclude tokens := by
  cases tokens with
  | nil => rfl
  | cons token rest => rfl

/-- What a moved reader makes of the end of the tokens. -/
theorem finish_relocate (before : Array Tree) (reader : Reader)
    (notEnd : ∀ name, reader.place = .afterName name → name.kind ≠ .endOfInput) :
    (reader.relocate relocation before).finish =
      relocation.reading before.toList reader.finish := by
  obtain ⟨place, statements, stop⟩ := reader
  cases place with
  | start => simp [finish, relocate, Place.relocate, Relocation.reading]
  | afterName name =>
    have about_eq := relocation.refusal_about .statement (notEnd name rfl)
    exact congrArg Except.error about_eq.symm
  | afterVar | afterVarName | operand => rfl
  | operator opening sum term => cases opening <;> rfl

/-- Moved tokens are read like the tokens, whatever statements stand before them. -/
theorem conclude_relocate (before : Array Tree) (stop : Nat) {tokens : List Token}
    (noEnd : ∀ token ∈ tokens, token.kind ≠ .endOfInput) :
    (Reader.mk .start before stop).conclude (tokens.map (Token.relocate relocation)) =
      relocation.reading before.toList (initial.conclude tokens) := by
  have start_eq : Reader.mk .start before (relocation.stop 0) =
      initial.relocate relocation before := by
    simp [initial, relocate, Place.relocate]
  rw [conclude_start before stop (relocation.stop 0), start_eq, conclude, conclude, feed_relocate]
  cases fed : initial.feed tokens with
  | error fault =>
    obtain ⟨complaint, token, member, rfl⟩ := exists_complaint_of_feed fed
    exact congrArg Except.error (relocation.refusal_about complaint (noEnd token member)).symm
  | ok last =>
    obtain ⟨statements, fragment, knows⟩ := exists_knows_of_feed fed
    refine finish_relocate relocation before last fun name place_eq => ?_
    exact noEnd name (knows.mem_of_afterName place_eq)

end Reader

/-! ## Lists of tokens -/

/-- Moving tokens makes no end of input of them. -/
theorem Token.kind_ne_of_mem_relocate {tokens : List Token}
    (noEnd : ∀ token ∈ tokens, token.kind ≠ .endOfInput) :
    ∀ token ∈ tokens.map (Token.relocate relocation), token.kind ≠ .endOfInput := by
  intro token member
  obtain ⟨original, originalMember, rfl⟩ := List.mem_map.mp member
  exact noEnd original originalMember

theorem Token.beforeEnd_relocate (tokens : List Token) :
    Token.beforeEnd (tokens.map (Token.relocate relocation)) =
      (Token.beforeEnd tokens).map (Token.relocate relocation) := by
  rw [beforeEnd, List.takeWhile_map]
  rfl

/-- A list of tokens without an end of input is taken to end with one. -/
theorem Tree.ofTokens_concat {tokens : List Token} {last : Token}
    (noEnd : ∀ token ∈ tokens, token.kind ≠ .endOfInput) (isEnd : last.kind = .endOfInput) :
    Tree.ofTokens (tokens ++ [last]) = Tree.ofTokens tokens := by
  rw [ofTokens, ofTokens, Token.beforeEnd_concat noEnd isEnd, Token.beforeEnd_eq_self noEnd]

/-- A list of moved tokens is read as the list is, with all spans moved. -/
theorem Tree.ofTokens_relocate (tokens : List Token) :
    Tree.ofTokens (tokens.map (Token.relocate relocation)) =
      relocation.reading [] (Tree.ofTokens tokens) := by
  have moved := Reader.conclude_relocate relocation #[] 0
    (Token.kind_ne_of_mem_beforeEnd tokens)
  rw [← Token.beforeEnd_relocate] at moved
  exact moved

/-- After the tokens of a program, moved tokens are read like the tokens alone. -/
theorem Tree.ofTokens_append_relocate {first tokens : List Token} {statements : List Tree}
    {stop : Nat} (fed : Reader.initial.feed first = .ok ⟨.start, statements.toArray, stop⟩)
    (firstNoEnd : ∀ token ∈ first, token.kind ≠ .endOfInput)
    (noEnd : ∀ token ∈ tokens, token.kind ≠ .endOfInput) :
    Tree.ofTokens (first ++ tokens.map (Token.relocate relocation)) =
      relocation.reading statements (Tree.ofTokens tokens) := by
  have allNoEnd : ∀ token ∈ first ++ tokens.map (Token.relocate relocation),
      token.kind ≠ .endOfInput :=
    List.forall_mem_append.mpr ⟨firstNoEnd, Token.kind_ne_of_mem_relocate relocation noEnd⟩
  calc Tree.ofTokens (first ++ tokens.map (Token.relocate relocation))
      = Reader.initial.conclude (first ++ tokens.map (Token.relocate relocation)) := by
        rw [ofTokens, Token.beforeEnd_eq_self allNoEnd]
        rfl
    _ = relocation.reading statements (Reader.initial.conclude tokens) := by
        rw [Reader.conclude_append fed, Reader.conclude_relocate relocation _ _ noEnd]
    _ = relocation.reading statements (Tree.ofTokens tokens) := by
        rw [ofTokens, Token.beforeEnd_eq_self noEnd]
        rfl

end PrintLang
