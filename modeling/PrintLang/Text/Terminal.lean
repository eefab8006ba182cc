/-!
# Text on a terminal

A terminal shows the text it is sent, except for what acts on the terminal: control characters,
and the sequences of characters that an escape character opens.

## Main Definitions

* `Terminal.Sequence` — how far a sequence has come
* `Terminal.State` — showing text or reading a sequence
* `Terminal.step` — the effect of one character, and whether it shows
* `Terminal.shown` — what shows of a text

## Main Statements

* `Terminal.shownFrom_of_all_isShown` — text without control characters shows as it is

## Design Notes

Control characters that move the cursor like white space show even inside some sequences.  After
one of them text shows again, and the sequence waits: the next control character that does not
show takes it up where it was, unless a character outside the ASCII range came before.
-/

namespace PrintLang

namespace Terminal

/-- The character that opens a sequence. -/
def escape : Char := '\x1b'

/-- The characters that break off every sequence. -/
def cancels (c : Char) : Bool :=
  c == '\x18' || c == '\x1a'

/-- The control characters that move the cursor like white space. -/
def isBlankControl (c : Char) : Bool :=
  c == '\t' || c == '\n' || c == '\x0c' || c == '\r'

/-- Whether a character is in the ASCII range. -/
def isAscii (c : Char) : Bool :=
  c.toNat < 128

/-- Whether a character shows outside of sequences. -/
def isShown (c : Char) : Bool :=
  !isAscii c || (32 ≤ c.toNat && c.toNat ≤ 126) || isBlankControl c

/-- Whether the code of a character is one of the codes from `low` to `high`. -/
def isBetween (low high : Nat) (c : Char) : Bool :=
  low ≤ c.toNat && c.toNat ≤ high

/-- How far a sequence has come. -/
inductive Sequence
  /-- There is only the escape character. -/
  | opened
  /-- A short sequence, which a digit, a letter or a sign near them ends. -/
  | short
  /-- A control sequence, which a letter or a sign near the letters ends. -/
  | control
  /-- A device string at its start. -/
  | device
  /-- The parameters of a device string. -/
  | deviceParameters
  /-- The end of the head of a device string. -/
  | deviceKind
  /-- The data of a string, which the byte 9C ends. -/
  | data
  /-- A system command, which a bell ends. -/
  | command
deriving DecidableEq, Repr

namespace Sequence

/-- The sequence after one more character, if the character does not end it. -/
def next (sequence : Sequence) (c : Char) : Option Sequence :=
  match sequence with
  | opened =>
    if c = '[' then some control
    else if c = ']' then some command
    else if c = 'P' then some device
    else if c = 'X' ∨ c = '^' ∨ c = '_' then some data
    else if isBetween 0x20 0x2f c then some short
    else if isBetween 0x30 0x7e c then none
    else some opened
  | short => if isBetween 0x30 0x7e c then none else some short
  | control => if isBetween 0x40 0x7e c then none else some control
  | device =>
    if isBetween 0x20 0x2f c then some deviceKind
    else if isBetween 0x30 0x3f c then some deviceParameters
    else if isBetween 0x40 0x7e c then some data
    else some device
  | deviceParameters =>
    if isBetween 0x20 0x2f c then some deviceKind
    else if isBetween 0x3c 0x7e c then some data
    else some deviceParameters
  | deviceKind => if isBetween 0x30 0x7e c then some data else some deviceKind
  | data => if (String.utf8EncodeChar c).contains 0x9c then none else some data
  | command => if c = '\x07' then none else some command

/-- Whether white space shows inside the sequence. -/
def showsBlanks : Sequence → Bool
  | opened | short | control => true
  | device | deviceParameters | deviceKind | data | command => false

end Sequence

/-- What a terminal does with the characters it is sent. -/
inductive State
  /-- It shows them.  A sequence may wait. -/
  | showing (waiting : Option Sequence)
  /-- It takes them as part of a sequence. -/
  | reading (sequence : Sequence)
deriving DecidableEq, Repr

namespace State

/-- Nothing waits. -/
def initial : State :=
  showing none

/-- The state in which a sequence goes on, if there is one. -/
def resume : Option Sequence → State
  | some sequence => reading sequence
  | none => initial

end State

/-- The state after one character, and whether the character shows. -/
def step (state : State) (c : Char) : State × Bool :=
  if c = escape then (.reading .opened, false)
  else if cancels c then (.initial, false)
  else
    match state with
    | .showing waiting =>
      if !isAscii c then (.initial, true)
      else if isShown c then (state, true)
      else (.resume waiting, false)
    | .reading sequence =>
      if isBlankControl c && sequence.showsBlanks then (.showing (some sequence), true)
      else (.resume (sequence.next c), false)

/-- What shows of characters that are sent in a state. -/
def shownFrom (state : State) : List Char → List Char
  | [] => []
  | c :: rest =>
    let (next, shows) := step state c
    if shows then c :: shownFrom next rest else shownFrom next rest

/-- What shows of a text. -/
def shown (text : String) : String :=
  String.ofList (shownFrom .initial text.toList)

/-- A character that shows outside of sequences shows if nothing waits, and nothing waits after
it. -/
theorem step_initial_of_isShown {c : Char} (shows : isShown c = true) :
    step .initial c = (.initial, true) := by
  have h1 : c ≠ escape := by
    rintro rfl
    revert shows
    decide
  have h2 : cancels c = false := by
    cases h : cancels c with
    | false => rfl
    | true =>
      simp only [cancels, Bool.or_eq_true, beq_iff_eq] at h
      rcases h with rfl | rfl <;> revert shows <;> decide
  by_cases h : isAscii c <;> simp [step, State.initial, h1, h2, h, shows]

/-- Text without control characters, white space aside, shows as it is. -/
theorem shownFrom_of_all_isShown {chars : List Char} (shows : ∀ c ∈ chars, isShown c = true) :
    shownFrom .initial chars = chars := by
  induction chars with
  | nil => rfl
  | cons c rest ih =>
    simp [shownFrom, step_initial_of_isShown (shows c (by simp)),
      ih fun d hd => shows d (by simp [hd])]

end Terminal

end PrintLang
