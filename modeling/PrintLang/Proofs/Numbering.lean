import PrintLang.Proofs.Grammar.Part
import PrintLang.Proofs.Rereading
import PrintLang.Proofs.Stopping

/-!
# Numbered tokens

Two lists of tokens with the same words differ in the places of their tokens only.  Both come from
one and the same list by moving its tokens, namely from the list in which every token stands where
it is counted: starts and stops are there the indices of tokens, and are moved to where the token of
that index starts and stops.

Whatever is known of a fault of the numbered tokens is therefore known of both lists.  Its span is
put together from the start of one token and the stop of another one, which is not before it, or is
the end of a token.  After moving, the spans in both lists are at tokens with the same indices.

## Main Definitions

* `Token.numbered` — the tokens with given words that stand where they are counted
* `Relocation.of` — where the numbered tokens are moved to
* `Span.Corresponds` — spans at the same tokens of two lists

## Main Statements

* `Token.relocate_numbered` — every list of tokens comes from numbered ones
* `Session.exists_node_of_interpret` — a fault of running is at a statement or at a node of one
* `Fault.corresponds_of_refused`, `Tree.corresponds_of_node` — the spans of faults correspond
-/

namespace PrintLang

/-! ## Numbers for positions -/

/-- The tokens with the given words that stand where they are counted. -/
def Token.numbered (words : List (TokenKind × String)) : List Token :=
  words.mapIdx fun index word => ⟨word.1, word.2, ⟨index, index⟩⟩

/-- Moves what starts or stops at an index to where the token of that index does. -/
def Relocation.of (tokens : List Token) : Relocation where
  start index := (tokens[index]?.map (·.span.start)).getD 0
  stop index := (tokens[index]?.map (·.span.stop)).getD 0

section Numbered

variable {tokens other : List Token} {index : Nat} {token : Token}

theorem Relocation.start_of (here : tokens[index]? = some token) :
    (Relocation.of tokens).start index = token.span.start := by
  simp [of, here]

theorem Relocation.stop_of (here : tokens[index]? = some token) :
    (Relocation.of tokens).stop index = token.span.stop := by
  simp [of, here]

namespace Token

/-- A numbered token stands at its index and has the word of that index. -/
theorem of_getElem?_numbered {words : List (TokenKind × String)}
    (here : (numbered words)[index]? = some token) :
    token.span = ⟨index, index⟩ ∧ words[index]? = some token.word := by
  rw [numbered, List.getElem?_mapIdx] at here
  obtain ⟨word, word_eq, rfl⟩ := Option.map_eq_some_iff.mp here
  exact ⟨rfl, word_eq⟩

/-- Every list of tokens comes from the numbered tokens with its words. -/
theorem relocate_numbered (tokens : List Token) :
    (numbered (tokens.map word)).map (Token.relocate (.of tokens)) = tokens := by
  refine List.ext_getElem? fun index => ?_
  rw [List.getElem?_map, numbered, List.getElem?_mapIdx, List.getElem?_map]
  cases here : tokens[index]? with
  | none => rfl
  | some token =>
    have start_eq := Relocation.start_of here
    have stop_eq := Relocation.stop_of here
    simp [relocate, Span.relocate, word, start_eq, stop_eq]

/-- The token of an index, given the word there. -/
theorem exists_getElem?_of_word {word : TokenKind × String}
    (here : (tokens.map Token.word)[index]? = some word) :
    ∃ token, tokens[index]? = some token := by
  rw [List.getElem?_map] at here
  obtain ⟨token, token_eq, -⟩ := Option.map_eq_some_iff.mp here
  exact ⟨token, token_eq⟩

/-- Some neighbouring tokens reach from one of all tokens to another one that is not before it. -/
theorem exists_indices_of_infix {part : List Token} (isPart : part <:+: tokens)
    (nonempty : part ≠ []) :
    ∃ (i j : Nat) (first last : Token), i ≤ j ∧ tokens[i]? = some first ∧ tokens[j]? = some last ∧
      reach part = ⟨first.span.start, last.span.stop⟩ := by
  obtain ⟨before, after, rfl⟩ := isPart
  obtain ⟨first, tail, part_eq⟩ := List.exists_cons_of_ne_nil nonempty
  obtain ⟨front, last, part_eq'⟩ := part.eq_nil_or_concat'.resolve_left nonempty
  refine ⟨before.length, before.length + front.length, first, last, Nat.le_add_right _ _, ?_, ?_,
    reach_of_ends part_eq part_eq'⟩
  · rw [part_eq]
    simp
  · rw [part_eq']
    simp

end Token

end Numbered

/-! ## Where running fails -/

/-- A run that fails does so at one of its statements, or at a node of one. -/
theorem Session.exists_node_of_interpret {session after : Session} {statements : List Tree}
    {fault : Fault} (run_eq : session.interpret statements = ⟨after, some fault⟩) :
    ∃ statement ∈ statements, ∃ node ∈ statement.nodes, fault.span = node.span := by
  obtain ⟨index, before, statement, stops, execute⟩ := exists_stopsAt run_eq
  refine ⟨statement, List.mem_of_getElem? stops.here, ?_⟩
  cases executes_of_execute execute with
  | @fails node _ _ member fails =>
    exact ⟨node, statement.mem_nodes_of_mem_visits member, fails.span_eq⟩
  | refused => exact ⟨statement, statement.mem_nodes_self, rfl⟩

/-! ## Corresponding spans -/

/-- Two spans are at the same tokens of two lists: they reach from the start of a token to the end
of one that is not before it, or they are the last characters of a token. -/
inductive Span.Corresponds (tokens other : List Token) : Span → Span → Prop
  | reach {i j : Nat} {first last otherFirst otherLast : Token} (ordered : i ≤ j)
    (first_eq : tokens[i]? = some first) (last_eq : tokens[j]? = some last)
    (otherFirst_eq : other[i]? = some otherFirst) (otherLast_eq : other[j]? = some otherLast) :
    Corresponds tokens other ⟨first.span.start, last.span.stop⟩
      ⟨otherFirst.span.start, otherLast.span.stop⟩
  | atEnd {i : Nat} {token otherToken : Token} (token_eq : tokens[i]? = some token)
    (otherToken_eq : other[i]? = some otherToken) :
    Corresponds tokens other ⟨token.span.stop - 1, token.span.stop⟩
      ⟨otherToken.span.stop - 1, otherToken.span.stop⟩

section Corresponds

variable {tokens other : List Token} (same : other.map Token.word = tokens.map Token.word)
include same

/-- A numbered token has its counterparts in both lists. -/
theorem Token.exists_counterparts {index : Nat} {token : Token}
    (here : (Token.numbered (tokens.map Token.word))[index]? = some token) :
    token.span = ⟨index, index⟩ ∧ ∃ first second,
      tokens[index]? = some first ∧ other[index]? = some second := by
  obtain ⟨span_eq, word_eq⟩ := Token.of_getElem?_numbered here
  obtain ⟨first, first_eq⟩ := Token.exists_getElem?_of_word word_eq
  rw [← same] at word_eq
  obtain ⟨second, second_eq⟩ := Token.exists_getElem?_of_word word_eq
  exact ⟨span_eq, first, second, first_eq, second_eq⟩

/-- What some numbered tokens reach over corresponds in both lists. -/
theorem Token.corresponds_reach {part : List Token}
    (isPart : part <:+: Token.numbered (tokens.map Token.word)) (nonempty : part ≠ []) :
    Span.Corresponds tokens other ((Token.reach part).relocate (.of tokens))
      ((Token.reach part).relocate (.of other)) := by
  obtain ⟨i, j, first, last, ordered, first_eq, last_eq, reach_eq⟩ :=
    Token.exists_indices_of_infix isPart nonempty
  obtain ⟨firstSpan, mine, yours, mine_eq, yours_eq⟩ := Token.exists_counterparts same first_eq
  obtain ⟨lastSpan, mineLast, yoursLast, mineLast_eq, yoursLast_eq⟩ :=
    Token.exists_counterparts same last_eq
  rw [reach_eq, firstSpan, lastSpan, Span.relocate, Span.relocate, Relocation.start_of mine_eq,
    Relocation.start_of yours_eq, Relocation.stop_of mineLast_eq,
    Relocation.stop_of yoursLast_eq]
  exact .reach ordered mine_eq mineLast_eq yours_eq yoursLast_eq

/-- Whatever the numbered tokens are refused for corresponds in both lists. -/
theorem Fault.corresponds_of_refused {fault : Fault}
    (refused : Token.Refused (Token.beforeEnd (Token.numbered (tokens.map Token.word))) fault) :
    Span.Corresponds tokens other ((Relocation.of tokens).refusal fault).span
      ((Relocation.of other).refusal fault).span := by
  have isPrefix : Token.beforeEnd (Token.numbered (tokens.map Token.word)) <+:
      Token.numbered (tokens.map Token.word) := List.takeWhile_prefix _
  cases refused with
  | @here token complaint member =>
    have notEnd := Token.kind_ne_of_mem_beforeEnd _ token member
    rw [Relocation.refusal_about _ complaint notEnd, Relocation.refusal_about _ complaint notEnd]
    obtain ⟨before, after, split⟩ := List.append_of_mem (isPrefix.subset member)
    have alone : [token] <:+: Token.numbered (tokens.map Token.word) :=
      ⟨before, after, by rw [split, List.append_assoc]; rfl⟩
    exact Token.corresponds_reach same alone (List.cons_ne_nil _ _)
  | @atEnd last complaint isLast =>
    obtain ⟨index, here⟩ := List.getElem?_of_mem (isPrefix.subset (List.mem_of_getLast? isLast))
    obtain ⟨span_eq, mine, yours, mine_eq, yours_eq⟩ := Token.exists_counterparts same here
    rw [Relocation.refusal_atEnd, Relocation.refusal_atEnd, span_eq, Relocation.stop_of mine_eq,
      Relocation.stop_of yours_eq]
    exact .atEnd mine_eq yours_eq

/-- What a node of a program of numbered tokens reaches over corresponds in both lists. -/
theorem Tree.corresponds_of_node {program : List Statement} {statement node : Tree}
    (same_tokens : program.flatMap Statement.tokens =
      Token.beforeEnd (Token.numbered (tokens.map Token.word)))
    (isStatement : statement ∈ program.map Statement.tree) (member : node ∈ statement.nodes) :
    Span.Corresponds tokens other (node.span.relocate (.of tokens))
      (node.span.relocate (.of other)) := by
  obtain ⟨derivation, inProgram, rfl⟩ := List.mem_map.mp isStatement
  obtain ⟨part, reaches, isPart⟩ := derivation.exists_over node member
  have inTokens : part <:+: Token.numbered (tokens.map Token.word) := by
    refine (isPart.trans (Statement.tokens_infix inProgram)).trans ?_
    rw [same_tokens]
    exact (List.takeWhile_prefix _).isInfix
  rw [reaches.span_eq]
  exact Token.corresponds_reach same inTokens reaches.nonempty

end Corresponds

end PrintLang
