import PrintLang.Text.Lines
import Mathlib.Data.List.Basic

/-!
# Lines and places of a text

A text is cut into lines in one way only: a line reaches up to the first line end and contains it,
and only the last line may lack one.  A carriage return with the line feed behind it is one line
end, and ends no line by itself.

A place names a line and a character in it, both counted from one.  It leads to a position: all
characters of the lines before, their line ends included, and those before it in its own line are
counted.  Every position of a text has one place that leads to it.

This place is found by walking over the text character by character, without any lines.  As long as
no line ends, the walk only counts columns; behind a line it is the walk over what follows, one line
further down.  So the walk is followed line by line, and what has to be known of a line is where it
ends.

## Main Definitions

* `lineEnds` — the characters, and the pair of them, that end a line
* `Line`, `CutsIntoLines` — a line before the rest of a text, and all lines of a text
* `Location.LeadsTo` — the position that a place stands for
* `Location.textFrom`, `Location.Shows` — what is read from a place on

## Main Statements

* `CutsIntoLines.exists_cut`, `CutsIntoLines.unique` — every text has its lines, and no others
* `CutsIntoLines.leadsTo_iff` — the place that is found leads to the position, and no other does
-/

namespace PrintLang

/-! ## Lines -/

/-- What ends a line. -/
def lineEnds : List (List Char) :=
  [['\r', '\n'], ['\n'], ['\r'], ['\x0b'], ['\x0c'], ['\u0085'], ['\u2028'], ['\u2029']]

/-- None of some characters ends a line. -/
def Unended (chars : List Char) : Prop :=
  ∀ c ∈ chars, [c] ∉ lineEnds

instance (chars : List Char) : Decidable (Unended chars) :=
  List.decidableBAll (fun c => [c] ∉ lineEnds) chars

/-- A line before the rest of a text. -/
inductive Line : (line rest : List Char) → Prop
  /-- A line with its line end.  A carriage return alone ends no line if a line feed follows. -/
  | ended {body ending rest : List Char} (unended : Unended body) (isEnd : ending ∈ lineEnds)
    (alone : ending = ['\r'] → rest.head? ≠ some '\n') : Line (body ++ ending) rest
  /-- The last line of a text that does not end with a line end. -/
  | last {body : List Char} (unended : Unended body) (nonempty : body ≠ []) : Line body []

/-- A text is cut into lines. -/
inductive CutsIntoLines : (text : List Char) → (lines : List (List Char)) → Prop
  | nothing : CutsIntoLines [] []
  | line {line rest : List Char} {lines : List (List Char)} (first : Line line rest)
    (others : CutsIntoLines rest lines) : CutsIntoLines (line ++ rest) (line :: lines)

/-! ### Where a line ends -/

/-- A character ends a line if it is a line end, unless it is the first one of a pair. -/
theorem endsLine_iff {c : Char} {rest : List Char} :
    endsLine c rest = true ↔ [c] ∈ lineEnds ∧ (c = '\r' → rest.head? ≠ some '\n') := by
  unfold endsLine
  split <;> simp_all [lineEnds]

/-- No line ends behind one of the characters of `front`, which `rest` follows. -/
def GoesOn (front rest : List Char) : Prop :=
  ∀ before c after, front = before ++ c :: after → endsLine c (after ++ rest) = false

namespace GoesOn

variable {front rest : List Char}

theorem of_unended (unended : Unended front) (rest : List Char) : GoesOn front rest := by
  rintro before c after rfl
  rw [Bool.eq_false_iff, ne_eq, endsLine_iff]
  intro ends
  exact unended c (by simp) ends.1

theorem left {more : List Char} (goesOn : GoesOn (front ++ more) rest) :
    GoesOn front (more ++ rest) := by
  rintro before c after rfl
  have notEnd := goesOn before c (after ++ more) (by simp)
  rwa [List.append_assoc] at notEnd

/-- A carriage return ends no line before a line feed. -/
theorem pair (unended : Unended front) (rest : List Char) :
    GoesOn (front ++ ['\r']) ('\n' :: rest) := by
  intro before c after split
  rcases List.eq_nil_or_concat' after with rfl | ⟨between, last, rfl⟩
  · obtain ⟨-, rfl⟩ := List.append_singleton_inj.mp split
    rfl
  · rw [← List.cons_append, ← List.append_assoc] at split
    obtain ⟨front_eq, -⟩ := List.append_singleton_inj.mp split
    rw [List.append_assoc]
    exact of_unended unended _ before c between front_eq

end GoesOn

theorem eq_pair_or_single {ending : List Char} (isEnd : ending ∈ lineEnds) :
    ending = ['\r', '\n'] ∨ ∃ c, ending = [c] := by
  simp only [lineEnds, List.mem_cons, List.not_mem_nil, or_false] at isEnd
  rcases isEnd with isPair | rfl | rfl | rfl | rfl | rfl | rfl | rfl
  · exact Or.inl isPair
  all_goals exact Or.inr ⟨_, rfl⟩

/-- The last character of a line ends it, unless the text does, and no other one ends a line. -/
theorem Line.exists_last {line rest : List Char} (isLine : Line line rest) :
    ∃ front c, line = front ++ [c] ∧ GoesOn front (c :: rest) ∧
      (endsLine c rest = true ∨ rest = []) := by
  cases isLine with
  | @ended body ending _ unended isEnd alone =>
    rcases eq_pair_or_single isEnd with rfl | ⟨c, rfl⟩
    · exact ⟨body ++ ['\r'], '\n', by simp, .pair unended rest, Or.inl rfl⟩
    · have ends : endsLine c rest = true := by
        refine endsLine_iff.mpr ⟨isEnd, fun isReturn => alone ?_⟩
        rw [isReturn]
      exact ⟨body, c, rfl, .of_unended unended _, Or.inl ends⟩
  | last unended nonempty =>
    obtain ⟨front, c, rfl⟩ := (List.eq_nil_or_concat' line).resolve_left nonempty
    have goesOn : GoesOn (front ++ [c]) [] := .of_unended unended []
    exact ⟨front, c, rfl, goesOn.left, Or.inr rfl⟩

theorem Line.ne_nil {line rest : List Char} (isLine : Line line rest) : line ≠ [] := by
  obtain ⟨front, c, rfl, -, -⟩ := isLine.exists_last
  exact List.append_ne_nil_of_right_ne_nil _ (List.cons_ne_nil _ _)

/-! ### There is exactly one cut -/

/-- No line at the beginning of a text is longer than another one there. -/
theorem Line.length_le {line other rest others : List Char} (isLine : Line line rest)
    (isOther : Line other others) (same : line ++ rest = other ++ others) :
    line.length ≤ other.length := by
  refine Nat.le_of_not_lt fun shorter => ?_
  obtain ⟨front, c, rfl, goesOn, -⟩ := isLine.exists_last
  obtain ⟨otherFront, otherLast, rfl, -, ends⟩ := isOther.exists_last
  -- The shorter line would end within the longer one.
  simp only [List.length_append, List.length_singleton] at shorter
  rw [List.append_assoc, List.singleton_append] at same
  have inFront : otherFront ++ [otherLast] <+: front := by
    refine List.prefix_of_prefix_length_le (List.prefix_append _ others) ?_ ?_
    · rw [← same]
      exact List.prefix_append _ _
    · rw [List.length_append, List.length_singleton]
      exact Nat.le_of_lt_succ shorter
  obtain ⟨more, rfl⟩ := inFront
  rw [List.append_assoc] at same
  obtain rfl := List.append_cancel_left same
  rcases ends with ends | nothing
  · rw [goesOn otherFront otherLast more (by simp)] at ends
    exact Bool.false_ne_true ends
  · exact absurd nothing (by simp)

/-- A character that is no line end makes a line longer. -/
theorem Line.cons {c : Char} {line rest : List Char} (isLine : Line line rest)
    (notEnd : [c] ∉ lineEnds) : Line (c :: line) rest := by
  cases isLine with
  | ended unended isEnd alone =>
    rw [← List.cons_append]
    exact .ended (List.forall_mem_cons.mpr ⟨notEnd, unended⟩) isEnd alone
  | last unended _ =>
    exact .last (List.forall_mem_cons.mpr ⟨notEnd, unended⟩) (List.cons_ne_nil _ _)

/-- A text that is not empty starts with a line. -/
theorem exists_line {text : List Char} (nonempty : text ≠ []) :
    ∃ line rest, text = line ++ rest ∧ Line line rest := by
  have none : Unended [] := List.forall_mem_nil _
  induction text with
  | nil => exact absurd rfl nonempty
  | cons c rest ih =>
    by_cases isEnd : [c] ∈ lineEnds
    · by_cases isPair : c = '\r' ∧ rest.head? = some '\n'
      · obtain ⟨rfl, feed⟩ := isPair
        obtain ⟨others, rfl⟩ := List.head?_eq_some_iff.mp feed
        exact ⟨['\r', '\n'], others, rfl, .ended none (by decide) nofun⟩
      · refine ⟨[c], rest, rfl, .ended none isEnd fun isReturn feed => ?_⟩
        exact isPair ⟨List.singleton_inj.mp isReturn, feed⟩
    · by_cases atEnd : rest = []
      · refine ⟨[c], rest, rfl, ?_⟩
        rw [atEnd]
        exact .last (List.forall_mem_singleton.mpr isEnd) (List.cons_ne_nil _ _)
      · obtain ⟨line, others, rfl, isLine⟩ := ih atEnd
        exact ⟨c :: line, others, rfl, isLine.cons isEnd⟩

namespace CutsIntoLines

variable {text : List Char} {lines : List (List Char)}

theorem flatten_eq (cuts : CutsIntoLines text lines) : lines.flatten = text := by
  induction cuts with
  | nothing => rfl
  | line _ _ ih => rw [List.flatten_cons, ih]

theorem eq_nil (cuts : CutsIntoLines text lines) (empty : text = []) : lines = [] := by
  cases cuts with
  | nothing => rfl
  | line first => exact absurd (List.append_eq_nil_iff.mp empty).1 first.ne_nil

theorem unique (cuts : CutsIntoLines text lines) {others : List (List Char)}
    (cutsOthers : CutsIntoLines text others) : lines = others := by
  induction cuts generalizing others with
  | nothing => exact (cutsOthers.eq_nil rfl).symm
  | @line line rest lines first _ ih =>
    generalize text_eq : line ++ rest = text at cutsOthers
    cases cutsOthers with
    | nothing => exact absurd (List.append_eq_nil_iff.mp text_eq).1 first.ne_nil
    | line other cutsRest =>
      have le := first.length_le other text_eq
      have ge := other.length_le first text_eq.symm
      obtain ⟨rfl, rfl⟩ := List.append_inj text_eq (Nat.le_antisymm le ge)
      rw [ih cutsRest]

/-- Every text is cut into lines. -/
theorem exists_cut (text : List Char) : ∃ lines, CutsIntoLines text lines := by
  -- By the length, since a line takes several characters at once.
  induction size_eq : text.length using Nat.strongRecOn generalizing text with
  | ind size ih =>
    by_cases empty : text = []
    · exact ⟨[], empty ▸ .nothing⟩
    · obtain ⟨line, rest, rfl, isLine⟩ := exists_line empty
      have shorter : rest.length < size := by
        have positive := List.length_pos_iff.mpr isLine.ne_nil
        rw [← size_eq, List.length_append]
        omega
      obtain ⟨lines, others⟩ := ih rest.length shorter rest rfl
      exact ⟨line :: lines, .line isLine others⟩

end CutsIntoLines

/-! ## Places -/

namespace Location

variable {line : List Char} {lines : List (List Char)} {place : Location} {position : Nat}

/-- A place leads to a position: its line is one of the text and reaches to its column, and the
characters before the place, in the lines before and in its own line, are as many as the position
says. -/
def LeadsTo (place : Location) (lines : List (List Char)) (position : Nat) : Prop :=
  ∃ before line later, lines = before ++ line :: later ∧ place.line = before.length + 1 ∧
    1 ≤ place.column ∧ place.column ≤ line.length ∧
    before.flatten.length + (place.column - 1) = position

/-- The text from a place on: the rest of its line, and the lines behind this. -/
def textFrom (place : Location) (lines : List (List Char)) : List Char :=
  (lines.getD (place.line - 1) []).drop (place.column - 1) ++ (lines.drop place.line).flatten

/-- The text from a place on starts with some characters, and there is at least one of them. -/
structure Shows (place : Location) (lines : List (List Char)) (chars : List Char) : Prop where
  nonempty : chars ≠ []
  starts : chars <+: place.textFrom lines

/-! ### Places by their lines -/

theorem leadsTo_first (inside : position < line.length) :
    (Location.mk 1 (position + 1)).LeadsTo (line :: lines) position :=
  ⟨[], line, lines, rfl, rfl, Nat.succ_pos _, inside, Nat.zero_add _⟩

theorem LeadsTo.next (leads : place.LeadsTo lines position) :
    (Location.mk (place.line + 1) place.column).LeadsTo (line :: lines)
      (line.length + position) := by
  obtain ⟨before, own, later, rfl, line_eq, column_pos, column_le, rfl⟩ := leads
  refine ⟨line :: before, own, later, rfl, ?_, column_pos, column_le, ?_⟩
  · rw [line_eq, List.length_cons]
  · rw [List.flatten_cons, List.length_append, Nat.add_assoc]

theorem not_leadsTo_nil : ¬ place.LeadsTo [] position := by
  rintro ⟨before, own, later, split, -⟩
  exact List.append_ne_nil_of_right_ne_nil _ (List.cons_ne_nil _ _) split.symm

/-- A place is in the first line, or it is a place of the text behind the first line. -/
theorem LeadsTo.first_or_next (leads : place.LeadsTo (line :: lines) position) :
    (place = ⟨1, position + 1⟩ ∧ position < line.length) ∨
      ∃ (later : Location) (more : Nat), later.LeadsTo lines more ∧
        place = ⟨later.line + 1, later.column⟩ ∧ position = line.length + more := by
  obtain ⟨number, column⟩ := place
  obtain ⟨before, own, later, split, rfl, column_pos, column_le, rfl⟩ := leads
  obtain ⟨column, rfl⟩ := Nat.exists_eq_add_of_le' column_pos
  cases before with
  | nil =>
    obtain ⟨rfl, -⟩ := List.cons.inj split
    have position_eq : ([] : List (List Char)).flatten.length + (column + 1 - 1) = column :=
      Nat.zero_add column
    rw [position_eq]
    exact Or.inl ⟨rfl, column_le⟩
  | cons first before =>
    obtain ⟨rfl, rfl⟩ := List.cons.inj split
    refine Or.inr ⟨⟨before.length + 1, column + 1⟩, before.flatten.length + column,
      ⟨before, own, later, rfl, rfl, column_pos, column_le, rfl⟩, rfl, ?_⟩
    rw [List.flatten_cons, List.length_append, Nat.add_assoc, Nat.add_sub_cancel]

/-- Every character has a place. -/
theorem exists_leadsTo (inside : position < lines.flatten.length) :
    ∃ place : Location, place.LeadsTo lines position := by
  induction lines generalizing position with
  | nil => exact absurd inside (Nat.not_lt_zero _)
  | cons line lines ih =>
    by_cases here : position < line.length
    · exact ⟨_, leadsTo_first here⟩
    · obtain ⟨more, rfl⟩ := Nat.exists_eq_add_of_le (Nat.le_of_not_lt here)
      rw [List.flatten_cons, List.length_append, Nat.add_lt_add_iff_left] at inside
      obtain ⟨place, leads⟩ := ih inside
      exact ⟨_, leads.next⟩

theorem LeadsTo.textFrom_eq (leads : place.LeadsTo lines position) :
    place.textFrom lines = lines.flatten.drop position := by
  obtain ⟨before, own, later, rfl, line_eq, column_pos, column_le, rfl⟩ := leads
  have own_eq : (before ++ own :: later).getD (place.line - 1) [] = own := by
    rw [line_eq]
    simp
  have later_eq : (before ++ own :: later).drop place.line = later := by
    rw [line_eq]
    simp
  rw [textFrom, own_eq, later_eq, List.flatten_append, List.flatten_cons,
    List.drop_length_add_append, List.drop_append_of_le_length]
  exact Nat.le_trans (Nat.sub_le _ _) column_le

/-! ### The walk over a line -/

theorem after_zero (here : Location) (text : List Char) : here.after text 0 = here := by
  rw [after]

theorem after_cons_of_not_endsLine {c : Char} {rest : List Char} (goesOn : endsLine c rest = false)
    (here : Location) (count : Nat) :
    here.after (c :: rest) (count + 1) =
      (Location.mk here.line (here.column + 1)).after rest count := by
  simp [after, goesOn]

theorem after_cons_of_endsLine {c : Char} {rest : List Char} (ends : endsLine c rest = true)
    (nonempty : rest ≠ []) (here : Location) (count : Nat) :
    here.after (c :: rest) (count + 1) = (Location.mk (here.line + 1) 1).after rest count := by
  simp [after, ends, nonempty]

/-- While no line ends, the walk counts columns. -/
theorem after_of_goesOn {front rest : List Char} (goesOn : GoesOn front rest) (here : Location)
    (count : Nat) :
    here.after (front ++ rest) (front.length + count) =
      (Location.mk here.line (here.column + front.length)).after rest count := by
  induction front generalizing here with
  | nil => rw [List.nil_append, List.length_nil, Nat.zero_add, Nat.add_zero]
  | cons c front ih =>
    have notEnd : endsLine c (front ++ rest) = false := goesOn [] c front rfl
    have others : GoesOn front rest := fun before other after split =>
      goesOn (c :: before) other after (congrArg (c :: ·) split)
    rw [List.cons_append, List.length_cons, Nat.add_right_comm, after_cons_of_not_endsLine notEnd,
      ih others, Nat.add_right_comm, Nat.add_assoc]

end Location

namespace Line

variable {line rest : List Char}

/-- Inside a line, the walk is still in it. -/
theorem after_inside (isLine : Line line rest) (here : Location) {count : Nat}
    (inside : count < line.length) :
    here.after (line ++ rest) count = ⟨here.line, here.column + count⟩ := by
  obtain ⟨front, c, rfl, goesOn, -⟩ := isLine.exists_last
  rw [List.length_append, List.length_singleton] at inside
  have le : count ≤ front.length := Nat.le_of_lt_succ inside
  have beginning : GoesOn (front.take count) (front.drop count ++ c :: rest) := by
    refine GoesOn.left ?_
    rwa [List.take_append_drop]
  have walk := Location.after_of_goesOn beginning here 0
  rw [List.length_take_of_le le, ← List.append_assoc, List.take_append_drop, Nat.add_zero] at walk
  rw [List.append_assoc, List.singleton_append, walk]
  exact Location.after_zero _ _

/-- Behind a line, the walk starts over in the next one, if there is one. -/
theorem after_next (isLine : Line line rest) (nonempty : rest ≠ []) (here : Location)
    (count : Nat) :
    here.after (line ++ rest) (line.length + count) =
      (Location.mk (here.line + 1) 1).after rest count := by
  obtain ⟨front, c, rfl, goesOn, ends⟩ := isLine.exists_last
  have endsHere : endsLine c rest = true := ends.resolve_right nonempty
  rw [List.append_assoc, List.singleton_append, List.length_append, List.length_singleton,
    Nat.add_assoc, Nat.add_comm 1, Location.after_of_goesOn goesOn,
    Location.after_cons_of_endsLine endsHere nonempty]

end Line

/-! ### The place that is found -/

namespace CutsIntoLines

variable {text : List Char} {lines : List (List Char)} {place : Location} {position : Nat}

/-- A walk that starts with a line comes to the place of the position.  The lines are counted on
from the number of the first one. -/
theorem after_eq (cuts : CutsIntoLines text lines) (leads : place.LeadsTo lines position)
    (number : Nat) :
    (Location.mk (number + 1) 1).after text position = ⟨number + place.line, place.column⟩ := by
  induction cuts generalizing place position number with
  | nothing => exact absurd leads Location.not_leadsTo_nil
  | line first others ih =>
    rcases leads.first_or_next with ⟨rfl, inside⟩ | ⟨later, more, leadsLater, rfl, rfl⟩
    · rw [first.after_inside _ inside, Nat.add_comm 1]
    · rw [first.after_next, ih leadsLater, Nat.add_assoc, Nat.add_comm 1]
      intro empty
      rw [others.eq_nil empty] at leadsLater
      exact Location.not_leadsTo_nil leadsLater

/-- The place that is found for a position of a text is the one that leads there. -/
theorem leadsTo_iff {source : String} (cuts : CutsIntoLines source.toList lines)
    (inside : position < source.length) :
    place.LeadsTo lines position ↔ place = locate source position := by
  have found {place : Location} (leads : place.LeadsTo lines position) :
      place = locate source position := by
    have walk := cuts.after_eq leads 0
    rw [Nat.zero_add, Nat.zero_add] at walk
    exact walk.symm
  constructor
  · exact found
  · rintro rfl
    rw [← String.length_toList, ← cuts.flatten_eq] at inside
    obtain ⟨place, leads⟩ := Location.exists_leadsTo inside
    rwa [← found leads]

end CutsIntoLines

end PrintLang
