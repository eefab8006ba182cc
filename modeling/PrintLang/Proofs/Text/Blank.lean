import PrintLang.Text.Blank
import Mathlib.Data.List.TakeWhile

/-!
# Trimmed texts

A text is trimmed in one way only: blank characters are taken from both ends until a character comes
that is none.  The line of a dialogue is trimmed once its bytes are known to be those of a text.

## Main Definitions

* `TrimsTo` — a trimmed text, by what it has to satisfy

## Main Statements

* `trimsTo_iff` — trimming finds it
* `fromUTF8?_eq_some_iff` — the text of some bytes is the one that they encode
-/

namespace PrintLang

/-- A text without the blank characters at its ends: these are blank, and what is left neither
starts nor ends with a blank character. -/
structure TrimsTo (text line : String) : Prop where
  inside : ∃ front back, (∀ c ∈ front, isBlank c) ∧ (∀ c ∈ back, isBlank c) ∧
    text.toList = front ++ line.toList ++ back
  starts : ∀ c ∈ line.toList.head?, isBlank c = false
  ends : ∀ c ∈ line.toList.getLast?, isBlank c = false

variable {text line : String}

theorem isBlank_head_dropWhile (chars : List Char) :
    ∀ c ∈ (chars.dropWhile isBlank).head?, isBlank c = false := by
  intro c isHead
  have notBlank := List.head?_dropWhile_not isBlank chars
  rw [Option.mem_def.mp isHead] at notBlank
  exact notBlank

theorem trimsTo_trim (text : String) : TrimsTo text (trim text) := by
  let kept := text.toList.dropWhile isBlank
  let trimmed := (kept.reverse.dropWhile isBlank).reverse
  have trim_eq : (trim text).toList = trimmed := String.toList_ofList
  have kept_eq : kept = trimmed ++ (kept.reverse.takeWhile isBlank).reverse := by
    rw [← List.reverse_append, List.takeWhile_append_dropWhile, List.reverse_reverse]
  constructor
  case inside =>
    refine ⟨text.toList.takeWhile isBlank, (kept.reverse.takeWhile isBlank).reverse,
      fun c => List.mem_takeWhile_imp, fun c member => ?_, ?_⟩
    · exact List.mem_takeWhile_imp (List.mem_reverse.mp member)
    · rw [trim_eq, List.append_assoc, ← kept_eq, List.takeWhile_append_dropWhile]
  case starts =>
    intro c isHead
    rw [trim_eq] at isHead
    refine isBlank_head_dropWhile text.toList c ?_
    show kept.head? = some c
    rw [kept_eq, List.head?_append, Option.mem_def.mp isHead]
    rfl
  case ends =>
    intro c isLast
    rw [trim_eq, List.getLast?_reverse] at isLast
    exact isBlank_head_dropWhile kept.reverse c isLast

theorem dropWhile_isBlank_eq_self {chars : List Char}
    (starts : ∀ c ∈ chars.head?, isBlank c = false) : chars.dropWhile isBlank = chars := by
  cases chars with
  | nil => rfl
  | cons c rest => exact List.dropWhile_cons_of_neg (Bool.eq_false_iff.mp (starts c rfl))

/-- Trimming finds the one text that is left between blank characters. -/
theorem trimsTo_iff : TrimsTo text line ↔ line = trim text := by
  constructor
  · rintro ⟨⟨front, back, blankFront, blankBack, text_eq⟩, starts, ends⟩
    have blankBackReversed : ∀ c ∈ back.reverse, isBlank c :=
      fun c member => blankBack c (List.mem_reverse.mp member)
    have kept_eq : text.toList.dropWhile isBlank = (line.toList ++ back).dropWhile isBlank := by
      rw [text_eq, List.append_assoc, List.dropWhile_append_of_pos blankFront]
    refine String.toList_inj.mp ?_
    rw [trim, String.toList_ofList, kept_eq]
    rcases chars_eq : line.toList with _ | ⟨c, rest⟩
    · rw [List.nil_append, List.dropWhile_eq_nil_iff.mpr blankBack]
      rfl
    · rw [chars_eq] at starts ends
      have startsWhole : ∀ other ∈ (c :: rest ++ back).head?, isBlank other = false := starts
      have endsReversed : ∀ other ∈ (c :: rest).reverse.head?, isBlank other = false :=
        fun other member => ends other (List.head?_reverse ▸ member)
      rw [dropWhile_isBlank_eq_self startsWhole, List.reverse_append,
        List.dropWhile_append_of_pos blankBackReversed, dropWhile_isBlank_eq_self endsReversed,
        List.reverse_reverse]
  · rintro rfl
    exact trimsTo_trim text

/-- The text of some bytes is the one that they encode. -/
theorem fromUTF8?_eq_some_iff {bytes : ByteArray} :
    String.fromUTF8? bytes = some text ↔ text.toUTF8 = bytes := by
  unfold String.fromUTF8?
  constructor
  · intro read
    split at read
    case isTrue valid =>
      cases read
      rfl
    case isFalse => cases read
  · rintro rfl
    exact dif_pos text.isValidUTF8

end PrintLang
