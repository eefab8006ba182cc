import PrintLang.Text.Lines
import Mathlib.Data.List.Basic

/-!
# The lines of a stream

A stream of bytes is cut into lines in one way only: a line feed ends a line and stands nowhere else
in it, only the last line may lack one, and no line is empty.  The cut is made byte by byte, so what
is cut off before a line feed does not depend on what follows it.

## Main Definitions

* `CutsAfterLineFeeds` — the lines of a stream, by what they have to satisfy
* `takeByte`, `CutSoFar` — the step from byte to byte, and how far it has come

## Main Statements

* `cutsAfterLineFeeds_iff` — the lines of a stream are those, and no others
* `splitAfterLineFeeds_append` — what follows a line feed is cut by itself
-/

namespace PrintLang

/-- Some lines are a stream of bytes cut after every line feed, the last one being what follows the
last line feed, unless that is nothing. -/
structure CutsAfterLineFeeds (bytes : List UInt8) (lines : List ByteArray) : Prop where
  joined : lines.flatMap (·.data.toList) = bytes
  nonempty : ∀ line ∈ lines, line.data.toList ≠ []
  only_at_end : ∀ line ∈ lines, 10 ∉ line.data.toList.dropLast
  closed : ∀ line ∈ lines.dropLast, line.data.toList.getLast? = some 10

namespace CutsAfterLineFeeds

variable {bytes : List UInt8} {line : ByteArray} {lines : List ByteArray}

/-! ## There is at most one cut -/

theorem tail (cuts : CutsAfterLineFeeds bytes (line :: lines)) :
    CutsAfterLineFeeds (lines.flatMap (·.data.toList)) lines where
  joined := rfl
  nonempty other member := cuts.nonempty other (List.mem_cons_of_mem _ member)
  only_at_end other member := cuts.only_at_end other (List.mem_cons_of_mem _ member)
  closed other member := by
    have nonempty : lines ≠ [] := List.ne_nil_of_mem (List.dropLast_subset lines member)
    refine cuts.closed other ?_
    rw [List.dropLast_cons_of_ne_nil nonempty]
    exact List.mem_cons_of_mem _ member

theorem isPrefix_head (cuts : CutsAfterLineFeeds bytes (line :: lines)) :
    line.data.toList <+: bytes := by
  rw [← cuts.joined, List.flatMap_cons]
  exact List.prefix_append _ _

/-- No beginning of the stream with a line feed at most at its end is longer than the first line. -/
theorem length_le_head (cuts : CutsAfterLineFeeds bytes (line :: lines)) {beginning : List UInt8}
    (isBeginning : beginning <+: bytes) (noFeed : 10 ∉ beginning.dropLast) :
    beginning.length ≤ line.data.toList.length := by
  refine Nat.le_of_not_lt fun longer => ?_
  have inside : line.data.toList <+: beginning.dropLast := by
    refine List.prefix_of_prefix_length_le cuts.isPrefix_head
      (beginning.dropLast_prefix.trans isBeginning) ?_
    rw [List.length_dropLast]
    exact Nat.le_sub_one_of_lt longer
  cases lines with
  | nil =>
    have whole : line.data.toList = bytes := by
      rw [← cuts.joined, List.flatMap_singleton]
    rw [whole] at longer
    exact absurd isBeginning.length_le (Nat.not_le_of_lt longer)
  | cons next rest =>
    have isClosed := cuts.closed line (List.mem_cons_self ..)
    exact noFeed (inside.subset (List.mem_of_getLast? isClosed))

theorem unique (cuts : CutsAfterLineFeeds bytes lines) {others : List ByteArray}
    (cutsOthers : CutsAfterLineFeeds bytes others) : lines = others := by
  induction lines generalizing bytes others with
  | nil =>
    cases others with
    | nil => rfl
    | cons other others =>
      have empty : bytes = [] := cuts.joined.symm
      have short := cutsOthers.isPrefix_head
      rw [empty, List.prefix_nil] at short
      exact absurd short (cutsOthers.nonempty other (List.mem_cons_self ..))
  | cons line lines ih =>
    cases others with
    | nil =>
      have empty : bytes = [] := cutsOthers.joined.symm
      have short := cuts.isPrefix_head
      rw [empty, List.prefix_nil] at short
      exact absurd short (cuts.nonempty line (List.mem_cons_self ..))
    | cons other others =>
      have le := cuts.length_le_head cutsOthers.isPrefix_head
        (cutsOthers.only_at_end other (List.mem_cons_self ..))
      have ge := cutsOthers.length_le_head cuts.isPrefix_head
        (cuts.only_at_end line (List.mem_cons_self ..))
      have inside :=
        List.prefix_of_prefix_length_le cuts.isPrefix_head cutsOthers.isPrefix_head ge
      have same : line.data.toList = other.data.toList :=
        inside.eq_of_length (Nat.le_antisymm ge le)
      have rest_eq : lines.flatMap (·.data.toList) = others.flatMap (·.data.toList) := by
        have joined := cuts.joined.trans cutsOthers.joined.symm
        rw [List.flatMap_cons, List.flatMap_cons, same] at joined
        exact List.append_cancel_left joined
      have line_eq : line = other := ByteArray.ext (Array.toList_inj.mp same)
      rw [line_eq, ih cuts.tail (rest_eq ▸ cutsOthers.tail)]

/-- Behind a line feed a stream is cut by itself. -/
theorem append {first second : List UInt8} {others : List ByteArray}
    (cuts : CutsAfterLineFeeds first lines) (ends : first.getLast? = some 10)
    (cutsOthers : CutsAfterLineFeeds second others) :
    CutsAfterLineFeeds (first ++ second) (lines ++ others) where
  joined := by rw [List.flatMap_append, cuts.joined, cutsOthers.joined]
  nonempty other member :=
    (List.mem_append.mp member).elim (cuts.nonempty other) (cutsOthers.nonempty other)
  only_at_end other member :=
    (List.mem_append.mp member).elim (cuts.only_at_end other) (cutsOthers.only_at_end other)
  closed other member := by
    -- The last of the first lines is closed as well, since the first stream ends with its end.
    have allClosed : ∀ line ∈ lines, line.data.toList.getLast? = some 10 := by
      rcases List.eq_nil_or_concat' lines with rfl | ⟨before, last, rfl⟩
      · exact fun line member => absurd member List.not_mem_nil
      · intro line member
        rcases List.mem_append.mp member with earlier | isLast
        · refine cuts.closed line ?_
          rwa [List.dropLast_concat]
        · rw [List.mem_singleton.mp isLast]
          have isMember : last ∈ before ++ [last] :=
            List.mem_append_right _ (List.mem_singleton_self _)
          rw [← cuts.joined, List.flatMap_append, List.flatMap_singleton,
            List.getLast?_append_of_ne_nil _ (cuts.nonempty last isMember)] at ends
          exact ends
    cases others with
    | nil =>
      rw [List.append_nil] at member
      exact allClosed other (List.dropLast_subset lines member)
    | cons next rest =>
      rw [List.dropLast_append_of_ne_nil (List.cons_ne_nil next rest)] at member
      exact (List.mem_append.mp member).elim (allClosed other) (cutsOthers.closed other)

end CutsAfterLineFeeds

/-! ## The cut that is made -/

/-- One byte more, given the lines that are closed and the one that is not. -/
def takeByte : Array ByteArray × ByteArray → UInt8 → Array ByteArray × ByteArray
  | (lines, line), byte =>
    if byte = 10 then (lines.push (line.push byte), ByteArray.empty)
    else (lines, line.push byte)

/-- How far some bytes have been cut: into lines that are closed, and one that is not. -/
structure CutSoFar (bytes : List UInt8) (cut : Array ByteArray × ByteArray) : Prop where
  joined : cut.1.toList.flatMap (·.data.toList) ++ cut.2.data.toList = bytes
  closed : ∀ line ∈ cut.1, ∃ text, 10 ∉ text ∧ line.data.toList = text ++ [10]
  noFeed : 10 ∉ cut.2.data.toList

namespace CutSoFar

variable {bytes : List UInt8} {cut : Array ByteArray × ByteArray}

theorem step (soFar : CutSoFar bytes cut) (byte : UInt8) :
    CutSoFar (bytes ++ [byte]) (takeByte cut byte) := by
  obtain ⟨lines, line⟩ := cut
  have push_eq : (line.push byte).data.toList = line.data.toList ++ [byte] := Array.toList_push
  rw [takeByte]
  by_cases isFeed : byte = 10
  · rw [if_pos isFeed]
    subst isFeed
    refine ⟨?_, fun other member => ?_, List.not_mem_nil⟩
    · rw [Array.toList_push, List.flatMap_append, List.flatMap_singleton, push_eq, ← soFar.joined]
      simp
    · rcases Array.mem_push.mp member with earlier | rfl
      · exact soFar.closed other earlier
      · exact ⟨line.data.toList, soFar.noFeed, push_eq⟩
  · rw [if_neg isFeed]
    refine ⟨?_, soFar.closed, ?_⟩
    · rw [push_eq, ← List.append_assoc, soFar.joined]
    · rw [push_eq, List.mem_append, List.mem_singleton, not_or]
      exact ⟨soFar.noFeed, Ne.symm isFeed⟩

theorem run (soFar : CutSoFar bytes cut) (more : List UInt8) :
    CutSoFar (bytes ++ more) (more.foldl takeByte cut) := by
  induction more generalizing bytes cut with
  | nil => rwa [List.append_nil]
  | cons byte rest ih =>
    have whole := ih (soFar.step byte)
    rwa [List.append_assoc] at whole

theorem of_mem (soFar : CutSoFar bytes cut) {line : ByteArray} (member : line ∈ cut.1.toList) :
    line.data.toList ≠ [] ∧ 10 ∉ line.data.toList.dropLast ∧
      line.data.toList.getLast? = some 10 := by
  obtain ⟨text, noFeed, text_eq⟩ := soFar.closed line (Array.mem_toList_iff.mp member)
  rw [text_eq, List.dropLast_concat, List.getLast?_concat]
  exact ⟨List.append_ne_nil_of_right_ne_nil _ (List.cons_ne_nil _ _), noFeed, rfl⟩

/-- The line that is not closed is the last one, unless it is empty. -/
theorem cutsAfterLineFeeds (soFar : CutSoFar bytes cut) :
    CutsAfterLineFeeds bytes
      (if cut.2.isEmpty then cut.1 else cut.1.push cut.2).toList := by
  obtain ⟨lines, last⟩ := cut
  have isEmpty_iff : last.isEmpty ↔ last.data.toList = [] := by
    rcases last with ⟨⟨_ | ⟨first, rest⟩⟩⟩
    · exact iff_of_true rfl rfl
    · exact iff_of_false Bool.false_ne_true (List.cons_ne_nil first rest)
  by_cases isEmpty : last.data.toList = []
  · rw [if_pos (isEmpty_iff.mpr isEmpty)]
    refine ⟨?_, fun line member => (soFar.of_mem member).1,
      fun line member => (soFar.of_mem member).2.1, fun line member => ?_⟩
    · rw [← soFar.joined, isEmpty, List.append_nil]
    · exact (soFar.of_mem (List.dropLast_subset _ member)).2.2
  · rw [if_neg (isEmpty_iff.not.mpr isEmpty), Array.toList_push]
    refine ⟨?_, fun line member => ?_, fun line member => ?_, fun line member => ?_⟩
    · rw [← soFar.joined, List.flatMap_append, List.flatMap_singleton]
    · rcases List.mem_append.mp member with isClosed | isLast
      · exact (soFar.of_mem isClosed).1
      · rwa [List.mem_singleton.mp isLast]
    · rcases List.mem_append.mp member with isClosed | isLast
      · exact (soFar.of_mem isClosed).2.1
      · rw [List.mem_singleton.mp isLast]
        exact fun inside => soFar.noFeed (List.dropLast_subset _ inside)
    · rw [List.dropLast_concat] at member
      exact (soFar.of_mem member).2.2

end CutSoFar

theorem cutsAfterLineFeeds_splitAfterLineFeeds (bytes : ByteArray) :
    CutsAfterLineFeeds bytes.data.toList (splitAfterLineFeeds bytes) :=
  (CutSoFar.mk rfl (fun _ member => absurd member (Array.not_mem_empty _)) List.not_mem_nil :
    CutSoFar [] (#[], ByteArray.empty)).run bytes.data.toList |>.cutsAfterLineFeeds

/-- The lines of a stream are what it is cut into, and it cannot be cut otherwise. -/
theorem cutsAfterLineFeeds_iff {bytes : ByteArray} {lines : List ByteArray} :
    CutsAfterLineFeeds bytes.data.toList lines ↔ lines = splitAfterLineFeeds bytes := by
  constructor
  · exact fun cuts => cuts.unique (cutsAfterLineFeeds_splitAfterLineFeeds bytes)
  · rintro rfl
    exact cutsAfterLineFeeds_splitAfterLineFeeds bytes

/-- What follows a line feed is cut by itself. -/
theorem splitAfterLineFeeds_append {first : ByteArray} (ends : first.data.toList.getLast? = some 10)
    (second : ByteArray) :
    splitAfterLineFeeds (first ++ second) =
      splitAfterLineFeeds first ++ splitAfterLineFeeds second := by
  refine (cutsAfterLineFeeds_iff.mp ?_).symm
  rw [ByteArray.data_append, Array.toList_append]
  exact (cutsAfterLineFeeds_splitAfterLineFeeds first).append ends
    (cutsAfterLineFeeds_splitAfterLineFeeds second)

end PrintLang
