/-!
# Spans

A span is a range of characters of the source text, counted in characters from zero and
without the end.

## Main Definitions

* `Span` — the range from `start` up to but not including `stop`
* `Span.single` — the span of one character
* `Span.atEnd` — the last character before a position
-/

namespace PrintLang

/-- The characters from position `start` up to but not including position `stop`. -/
structure Span where
  /-- The position of the first character. -/
  start : Nat
  /-- The position after the last character. -/
  stop : Nat
deriving DecidableEq, Repr

namespace Span

/-- The span of the character at `position`. -/
def single (position : Nat) : Span :=
  ⟨position, position + 1⟩

/-- The span of the last character before `stop`, empty if there is none, so that a fault at
the end of the text points at a character of the text. -/
def atEnd (stop : Nat) : Span :=
  ⟨stop - 1, stop⟩

end Span

end PrintLang
