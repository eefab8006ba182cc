/-!
# Sorted ranges of code points

A class of characters is given by a list of closed ranges in ascending order.  The search
stops at the first range that starts above the code point, so characters of the common
scripts are found after a few comparisons.

## Main Definitions

* `inRanges` — membership of a code point in a list of ranges
-/

namespace PrintLang

/-- Whether `n` lies in one of the closed ranges, which are in ascending order. -/
def inRanges : List (Nat × Nat) → Nat → Bool
  | [], _ => false
  | (first, last) :: rest, n =>
    if n < first then false else if n ≤ last then true else inRanges rest n

end PrintLang
