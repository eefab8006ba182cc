import PrintLang.Text.Ranges

/-!
# Blank characters

The property *White_Space* of Unicode 17.0, and trimming by it.  A line of the dialogue is
trimmed before it is read; inside a program only four of these characters separate tokens.

## Main Definitions

* `blankRanges` — the code points of the property, as ascending closed ranges
* `isBlank` — membership of a character
* `trim` — a text without the blank characters at its ends
-/

namespace PrintLang

/-- The code points with the property *White_Space* in Unicode 17.0, in ascending order. -/
def blankRanges : List (Nat × Nat) :=
  [(0x9, 0xD), (0x20, 0x20), (0x85, 0x85), (0xA0, 0xA0), (0x1680, 0x1680), (0x2000, 0x200A),
   (0x2028, 0x2029), (0x202F, 0x202F), (0x205F, 0x205F), (0x3000, 0x3000)]

/-- Whether `c` has the Unicode property *White_Space*. -/
def isBlank (c : Char) : Bool :=
  inRanges blankRanges c.toNat

/-- The text without the blank characters at its start and at its end. -/
def trim (text : String) : String :=
  String.ofList ((text.toList.dropWhile isBlank).reverse.dropWhile isBlank).reverse

end PrintLang
