import PrintLang.Grammar.Place

/-!
# Reading tokens

The statements of a program are read from its tokens one token at a time.

## Main Definitions

* `Reader` — a place in the grammar together with the statements before it
* `Reader.step`, `Reader.feed` — the state after one token and after many
* `Tree.ofTokens` — the statements of a list of tokens

## Design Notes

The tokens count up to the first end of input, and a list without one is taken to end with it.
A fault there points at the last character of the last token.
-/

namespace PrintLang

/-- What is known after the tokens read so far. -/
structure Reader where
  /-- The place in the grammar. -/
  place : Place
  /-- The complete statements. -/
  statements : Array Tree
  /-- The position after the last token. -/
  stop : Nat

namespace Reader

/-- Before the first token. -/
def initial : Reader :=
  ⟨.start, #[], 0⟩

/-- Reads one token. -/
def step (reader : Reader) (token : Token) : Except Fault Reader :=
  match reader.place.step token with
  | .ok (place, none) => .ok ⟨place, reader.statements, token.span.stop⟩
  | .ok (place, some statement) =>
    .ok ⟨place, reader.statements.push statement, token.span.stop⟩
  | .error fault => .error fault

/-- Reads tokens in order, up to the first fault. -/
def feed (reader : Reader) : List Token → Except Fault Reader
  | [] => .ok reader
  | token :: rest =>
    match reader.step token with
    | .ok next => next.feed rest
    | .error fault => .error fault

/-- The statements of a program that ends here. -/
def finish (reader : Reader) : Except Fault (List Tree) :=
  match reader.place with
  | .start => .ok reader.statements.toList
  | place => .error (place.refuseEnd reader.stop)

/-- Reading tokens and then others is reading them joined. -/
theorem feed_append (reader : Reader) (first second : List Token) :
    reader.feed (first ++ second) =
      match reader.feed first with
      | .ok next => next.feed second
      | .error fault => .error fault := by
  induction first generalizing reader with
  | nil => rfl
  | cons token rest ih =>
    simp only [List.cons_append, feed]
    cases reader.step token with
    | ok next => exact ih next
    | error fault => rfl

end Reader

/-- The tokens before the first end of input. -/
def Token.beforeEnd (tokens : List Token) : List Token :=
  tokens.takeWhile (·.kind ≠ .endOfInput)

namespace Tree

/-- The statements of a list of tokens, or the first token that no statement goes on with. -/
def ofTokens (tokens : List Token) : Except Fault (List Tree) :=
  match Reader.initial.feed (Token.beforeEnd tokens) with
  | .ok reader => reader.finish
  | .error fault => .error fault

end Tree

end PrintLang
