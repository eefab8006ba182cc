/-!
# Similar words

When an unknown word is given where one of several is expected, the most similar of these is
suggested.  The measure is Jaro similarity: the share of characters of either word that have a
partner in the other one not too far away, less a share for partners in another order.

## Main Definitions

* `Similarity.jaro` — the similarity of two words, between zero and one
* `Similarity.closest?` — the most similar of several words, if any is similar enough
-/

namespace PrintLang

namespace Similarity

/-- Pairs the characters of a word, in order and beginning with position `i`, with equal
characters of `other` at most `reach` positions away, each at most once.  The result holds the
position of the partner of each character. -/
def partners (other : List Char) (reach : Nat) : List Char → Nat → List Nat → List (Option Nat)
  | [], _, _ => []
  | c :: rest, i, taken =>
    let partner := (List.range other.length).find? fun j =>
      i ≤ j + reach ∧ j ≤ i + reach ∧ other[j]? = some c ∧ j ∉ taken
    partner :: partners other reach rest (i + 1) (partner.toList ++ taken)

/-- The Jaro similarity of two words. -/
def jaro (word other : List Char) : Float :=
  if word.isEmpty && other.isEmpty then
    1
  else
    let reach := max word.length other.length / 2 - 1
    let found := partners other reach word 0 []
    let positions := found.filterMap id
    let matched := positions.length
    if matched = 0 then
      0
    else
      let inWord := (word.zip found).filterMap fun (c, partner) => partner.map fun _ => c
      let inOther := ((List.range other.length).filter (· ∈ positions)).filterMap (other[·]?)
      let swapped := ((inWord.zip inOther).filter fun (c, d) => c ≠ d).length / 2
      let share (count whole : Nat) : Float := Float.ofNat count / Float.ofNat whole
      (share matched word.length + share matched other.length
        + share (matched - swapped) matched) / 3

/-- The most similar of several words, the last one of equals, if its similarity is above
`0.7`. -/
def closest? (word : String) (others : List String) : Option String :=
  let best := others.foldl
    (fun (best : Float × Option String) other =>
      let similarity := jaro word.toList other.toList
      if best.1 ≤ similarity ∧ 0.7 < similarity then (similarity, some other) else best)
    (0, none)
  best.2

end Similarity

end PrintLang
