import PrintLang.Invocation
import PrintLang.Proofs.Footprint
import PrintLang.Proofs.Text.Blank
import PrintLang.Proofs.Text.Lines

/-!
# Transcripts of dialogues

A dialogue runs the lines of its input one by one, each as a complete program on the bindings that
the lines before it have left, up to a line that ends it.  What has been shown before makes no
difference to a line, so what a dialogue shows is what its lines show, put behind each other.

The lines are trimmed before they are run, and an empty one is not run at all.  A line that fails
keeps the bindings that it has made, and the dialogue goes on.

## Main Definitions

* `Session.resumed` — a session with some bindings and nothing else
* `Console.added`, `Outcome.notices` — a console that shows more, and what is noted of a piece of
  work
* `Dialogue.spoken`, `Dialogue.exit` — the lines in front of the one that ends a dialogue, and how
  it ends
* `Dialogue.effects`, `Dialogue.transcript` — what comes of lines, and what is written of it
* `Dialogue.hold` — a dialogue from its banner on

## Main Statements

* `Session.runLine_behind` — what stands before a line makes no difference to it
* `Dialogue.exists_converse_eq` — a conversation shows what its lines show
* `Dialogue.effects_append` — lines go on with all bindings made so far
* `Dialogue.hold_transcribes` — a dialogue from its banner to its end
-/

namespace PrintLang

/-! ## A line on its own -/

namespace Session

/-- A session that goes on with some bindings, with nothing written and nothing logged. -/
def resumed (environment : Environment) : Session :=
  ⟨environment, .empty none, #[]⟩

theorem open_resumed (environment : Environment) : (resumed environment).sink.Open :=
  ⟨rfl, rfl⟩

/-- What has been written and logged before makes no difference to a line. -/
theorem runLine_behind {session : Session} (isOpen : session.sink.Open) (written : ByteArray)
    (log : Array Event) (source : String) :
    (session.behind written log).runLine source = (session.runLine source).behind written log := by
  have body_eq {session : Session} (isOpen : session.sink.Open) :
      Script.runBody source (session.behind written log) =
        (Script.runBody source session).behind written log := by
    unfold Script.runBody
    cases Script.read source with
    | error fault => rfl
    | ok statements => exact interpret_behind written log isOpen statements
  have start_eq (more : Array Event) :
      { session.behind written log with log := (session.behind written log).log ++ more } =
        { session with log := session.log ++ more }.behind written log := by
    rw [log_behind, Array.append_assoc]
    rfl
  rw [runLine_eq_runBody, runLine_eq_runBody, start_eq]
  exact body_eq isOpen

end Session

/-! ## Consoles that show more -/

/-- Whether a notice is more than an event in the log. -/
def Notice.isMessage : Notice → Bool
  | event _ => false
  | report _ | line _ => true

theorem Notice.isShown_of_isMessage {notice : Notice} (isMessage : notice.isMessage)
    (level : Level) : notice.isShown level := by
  cases notice with
  | event => cases isMessage
  | report | line => rfl

/-- The log of a console may go down to any level; its messages are shown in any case. -/
theorem Invocation.filter_isMessage_ofConsole (status : Nat) (level : Level) (console : Console) :
    (ofConsole status level console).notices.filter Notice.isMessage =
      console.notices.toList.filter Notice.isMessage := by
  rw [ofConsole, List.filter_filter]
  refine List.filter_congr fun notice _ => ?_
  cases isMessage : notice.isMessage with
  | false => rfl
  | true => exact Notice.isShown_of_isMessage isMessage level

/-- What is noted of work on a source text: its events, and then the report of the fault that
stopped it. -/
def Outcome.notices (source : String) (file : Option String) (outcome : Outcome) : List Notice :=
  outcome.session.log.toList.map .event ++
    outcome.fault.toList.map fun fault => .report (Report.ofFault source file fault)

/-- But for its events, a piece of work leaves a report if it fails, and nothing otherwise. -/
theorem Outcome.filter_isMessage_notices (source : String) (file : Option String)
    (outcome : Outcome) :
    (outcome.notices source file).filter Notice.isMessage =
      outcome.fault.toList.map fun fault => .report (Report.ofFault source file fault) := by
  have noEvent : (outcome.session.log.toList.map Notice.event).filter Notice.isMessage = [] := by
    simp [Notice.isMessage]
  rw [notices, List.filter_append, noEvent, List.nil_append]
  cases outcome.fault <;> rfl

namespace Console

variable (console : Console)

/-- The console after some work, which has left an environment and has shown something more. -/
def added (environment : Environment) (written : ByteArray) (notices : List Notice) : Console :=
  ⟨environment, console.output ++ written, console.notices ++ notices.toArray⟩

theorem added_nothing : console.added console.environment ByteArray.empty [] = console := by
  simp [added]

theorem added_added (environment next : Environment) (written more : ByteArray)
    (notices others : List Notice) :
    (console.added environment written notices).added next more others =
      console.added next (written ++ more) (notices ++ others) := by
  simp [added, ByteArray.append_assoc]

theorem print_eq_added (text : String) :
    console.print text = console.added console.environment text.toUTF8 [] := by
  simp [added, print]

theorem note_eq_added (notice : Notice) :
    console.note notice = console.added console.environment ByteArray.empty [notice] := by
  simp [added, note]

theorem session_eq_behind :
    console.session = (Session.resumed console.environment).behind console.output #[] := by
  simp [session, sink, Session.resumed, Session.behind, Sink.empty]

theorem notices_finish (source : String) (file : Option String) (outcome : Outcome) :
    (console.finish source file outcome).notices =
      console.notices ++ (outcome.notices source file).toArray := by
  rw [finish, Outcome.notices]
  refine Array.toList_inj.mp ?_
  cases outcome.fault <;> simp

/-- A line shows what it does in a session that goes on with the bindings of the console. -/
theorem runLine_eq_added (source : String) (file : Option String) :
    let outcome := (Session.resumed console.environment).runLine source
    console.runLine source file =
      console.added outcome.session.environment outcome.session.sink.written
        (outcome.notices source file) := by
  intro outcome
  have behind_eq : console.session.runLine source = outcome.behind console.output #[] := by
    rw [session_eq_behind, Session.runLine_behind (Session.open_resumed _)]
  have noted := console.notices_finish source file (outcome.behind console.output #[])
  have notices_eq : (outcome.behind console.output #[]).notices source file =
      outcome.notices source file := by
    simp [Outcome.notices]
  rw [notices_eq] at noted
  rw [runLine, behind_eq, added, ← noted]
  rfl

end Console

/-! ## Lines of a dialogue -/

namespace Dialogue

/-- What a line of the input says: its text without the blank characters at both ends, if it is a
text. -/
def said? (bytes : ByteArray) : Option String :=
  (String.fromUTF8? bytes).map trim

theorem said?_eq_some_iff {bytes : ByteArray} {line : String} :
    said? bytes = some line ↔ ∃ text : String, text.toUTF8 = bytes ∧ TrimsTo text line := by
  rw [said?, Option.map_eq_some_iff]
  refine exists_congr fun text => and_congr fromUTF8?_eq_some_iff ?_
  rw [trimsTo_iff, eq_comm]

/-- Whether a dialogue ends with a line, because it is no text or because it says so. -/
def endsAt (bytes : ByteArray) : Bool :=
  match said? bytes with
  | some line => line == "exit" || line == "quit"
  | none => true

/-- What is said in a dialogue, line by line, before it ends. -/
def spoken (lines : List ByteArray) : List String :=
  (lines.takeWhile fun line => !endsAt line).filterMap said?

/-- The ways in which a dialogue ends. -/
inductive Exit
  /-- With a line that says so. -/
  | farewell
  /-- With a line that is no text. -/
  | unreadable
  /-- With the input. -/
  | endOfInput
deriving DecidableEq

/-- How a dialogue ends with a line, if it does. -/
def Exit.at (bytes : ByteArray) : Exit :=
  if (said? bytes).isSome then farewell else unreadable

/-- How a dialogue ends: with the first line that ends it, or else with the input. -/
def exit (lines : List ByteArray) : Exit :=
  match lines.find? endsAt with
  | some line => .at line
  | none => .endOfInput

/-- What is written at the end, behind the last prompt. -/
def Exit.written : Exit → String
  | farewell => "Goodbye!\n"
  | unreadable => ""
  | endOfInput => "\n"

/-- What is noted at the end. -/
def Exit.notices : Exit → List Notice
  | unreadable => [.line "Error reading input: stream did not contain valid UTF-8"]
  | farewell | endOfInput => []

/-- What comes of a line: it is run as a complete program, unless it is empty. -/
def effect (environment : Environment) (line : String) : Outcome :=
  if line.isEmpty then ⟨.resumed environment, none⟩
  else (Session.resumed environment).runLine line

/-- Lines with what comes of them, each on the bindings that those before it have left. -/
def effects (environment : Environment) : List String → List (String × Outcome)
  | [] => []
  | line :: rest =>
    let outcome := effect environment line
    (line, outcome) :: effects outcome.session.environment rest

/-- What is written of lines: each has a prompt in front of what it writes itself. -/
def transcript : List (String × Outcome) → ByteArray
  | [] => ByteArray.empty
  | (_, outcome) :: rest => "> ".toUTF8 ++ outcome.session.sink.written ++ transcript rest

/-- What is noted of lines. -/
def notices (runs : List (String × Outcome)) : List Notice :=
  runs.flatMap fun (line, outcome) => outcome.notices line none

theorem notices_cons (line : String) (outcome : Outcome) (rest : List (String × Outcome)) :
    notices ((line, outcome) :: rest) = outcome.notices line none ++ notices rest :=
  List.flatMap_cons

/-! ### From line to line -/

section

variable {bytes : ByteArray} (rest : List ByteArray)

theorem exists_said_of_goesOn (goesOn : endsAt bytes = false) :
    ∃ line, said? bytes = some line := by
  rw [endsAt] at goesOn
  cases saying : said? bytes with
  | none =>
    rw [saying] at goesOn
    cases goesOn
  | some line => exact ⟨line, rfl⟩

theorem spoken_of_endsAt (ends : endsAt bytes = true) : spoken (bytes :: rest) = [] := by
  rw [spoken, List.takeWhile_cons, ends]
  rfl

theorem spoken_of_said {line : String} (saying : said? bytes = some line)
    (goesOn : endsAt bytes = false) : spoken (bytes :: rest) = line :: spoken rest := by
  rw [spoken, List.takeWhile_cons, goesOn]
  exact List.filterMap_cons_some saying

theorem exit_of_endsAt (ends : endsAt bytes = true) : exit (bytes :: rest) = .at bytes := by
  rw [exit, List.find?_cons_of_pos ends]

theorem exit_of_goesOn (goesOn : endsAt bytes = false) : exit (bytes :: rest) = exit rest := by
  rw [exit, exit, List.find?_cons_of_neg (Bool.eq_false_iff.mp goesOn)]

end

variable (console : Console)

theorem answer_of_endsAt {bytes : ByteArray} (ends : endsAt bytes = true) :
    answer console bytes =
      (console.added console.environment (Exit.at bytes).written.toUTF8 (Exit.at bytes).notices,
        false) := by
  rw [endsAt, said?] at ends
  rw [answer, Exit.at, said?]
  cases read : String.fromUTF8? bytes with
  | none => exact congrArg (·, false) (console.note_eq_added _)
  | some text =>
    rw [read] at ends
    have isFarewell : isFarewell (trim text) = true := ends
    have nonempty : (trim text).isEmpty = false := by
      rcases (Bool.or_eq_true _ _).mp ends with isExit | isQuit
      · rw [eq_of_beq isExit]
        rfl
      · rw [eq_of_beq isQuit]
        rfl
    dsimp only
    rw [nonempty, isFarewell]
    exact congrArg (·, false) (console.print_eq_added _)

theorem answer_of_said {bytes : ByteArray} {line : String} (saying : said? bytes = some line)
    (goesOn : endsAt bytes = false) :
    let outcome := effect console.environment line
    answer console bytes =
      (console.added outcome.session.environment outcome.session.sink.written
        (outcome.notices line none), true) := by
  intro outcome
  obtain ⟨text, read, rfl⟩ := Option.map_eq_some_iff.mp saying
  rw [endsAt, saying] at goesOn
  rw [answer, read]
  dsimp only
  cases isEmpty : (trim text).isEmpty with
  | true =>
    have outcome_eq : outcome = ⟨.resumed console.environment, none⟩ := if_pos isEmpty
    rw [outcome_eq, if_pos rfl]
    exact congrArg (·, true) console.added_nothing.symm
  | false =>
    have outcome_eq : outcome = (Session.resumed console.environment).runLine (trim text) :=
      if_neg (by rw [isEmpty]; exact Bool.false_ne_true)
    have isNoFarewell : isFarewell (trim text) = false := goesOn
    rw [outcome_eq, if_neg Bool.false_ne_true, isNoFarewell, if_neg Bool.false_ne_true]
    exact congrArg (·, true) (console.runLine_eq_added _ _)

/-- A conversation shows what its lines show, with a prompt before each line and one at the end. -/
theorem exists_converse_eq (lines : List ByteArray) :
    let runs := effects console.environment (spoken lines)
    ∃ environment, converse console lines =
      console.added environment
        (transcript runs ++ "> ".toUTF8 ++ (exit lines).written.toUTF8)
        (notices runs ++ (exit lines).notices) := by
  induction lines generalizing console with
  | nil =>
    refine ⟨console.environment, ?_⟩
    rw [converse, Console.print_eq_added, Console.print_eq_added, Console.added_added]
    exact congrArg (console.added _ · []) (congrArg (· ++ _) ByteArray.empty_append.symm)
  | cons bytes rest ih =>
    rw [converse, Console.print_eq_added]
    cases ends : endsAt bytes with
    | true =>
      refine ⟨console.environment, ?_⟩
      rw [answer_of_endsAt _ ends, spoken_of_endsAt rest ends, exit_of_endsAt rest ends]
      dsimp only
      rw [Console.added_added]
      exact congrArg (console.added _ · _) (congrArg (· ++ _) ByteArray.empty_append.symm)
    | false =>
      obtain ⟨line, saying⟩ := exists_said_of_goesOn ends
      rw [answer_of_said _ saying ends, spoken_of_said rest saying ends, exit_of_goesOn rest ends]
      dsimp only
      obtain ⟨environment, rest_eq⟩ := ih _
      refine ⟨environment, rest_eq.trans ?_⟩
      rw [Console.added_added, Console.added_added, effects, transcript, notices_cons]
      simp only [ByteArray.append_assoc, List.append_assoc]
      rfl

/-! ### Bindings -/

/-- The bindings that lines have made, in order. -/
def boundIn (runs : List (String × Outcome)) : List (String × Value) :=
  runs.flatMap fun (_, outcome) => outcome.session.bindings

theorem environment_effect (environment : Environment) (line : String) :
    (effect environment line).session.environment =
      environment.replay (effect environment line).session.bindings := by
  unfold effect
  split
  case isTrue => rfl
  case isFalse =>
    obtain ⟨environment_eq, bindings_eq⟩ :=
      (Session.resumed environment).extends_call (.line line)
    exact environment_eq.trans (congrArg environment.replay bindings_eq.symm)

/-- Lines go on with the bindings that there have been, and all those that the lines before them
have made. -/
theorem effects_append (environment : Environment) (first second : List String) :
    effects environment (first ++ second) =
      effects environment first ++
        effects (environment.replay (boundIn (effects environment first))) second := by
  induction first generalizing environment with
  | nil => rfl
  | cons line rest ih =>
    have bound_eq (run : String × Outcome) (runs : List (String × Outcome)) :
        boundIn (run :: runs) = run.2.session.bindings ++ boundIn runs := List.flatMap_cons
    rw [List.cons_append, effects, effects, ih, bound_eq, Environment.replay_append,
      ← environment_effect]
    rfl

/-! ### From the banner to the end -/

/-- A dialogue with all of its input, from the banner on. -/
def hold (console : Console) (level : Level) (input : ByteArray) : Invocation :=
  .ofConsole 0 level (converse (console.print banner) (splitAfterLineFeeds input))

theorem banner_toUTF8 :
    banner.toUTF8 = Sink.linesBytes
      ["Quill Interpreter v0.1.0", "Type 'exit' or press Ctrl+D to quit", ""] := by
  decide +kernel

/-- What a dialogue comes to, given the console on which it starts, the level of the log, the lines
of its input, and what comes of those in front of the one that ends it. -/
structure Transcribes (console : Console) (level : Level) (lines : List ByteArray)
    (runs : List (String × Outcome)) (dialogue : Invocation) : Prop where
  status_eq : dialogue.status = 0
  output_eq : dialogue.output =
    console.output ++
      Sink.linesBytes ["Quill Interpreter v0.1.0", "Type 'exit' or press Ctrl+D to quit", ""] ++
      transcript runs ++ "> ".toUTF8 ++ (exit lines).written.toUTF8
  notices_eq : dialogue.notices =
    (console.notices.toList ++ notices runs ++ (exit lines).notices).filter (Notice.isShown level)
  messages_eq : dialogue.notices.filter Notice.isMessage =
    console.notices.toList.filter Notice.isMessage ++
      (runs.filterMap fun (line, outcome) =>
        outcome.fault.map fun fault => .report (Report.ofFault line none fault)) ++
      (exit lines).notices

theorem filter_isMessage_notices (runs : List (String × Outcome)) :
    (notices runs).filter Notice.isMessage =
      runs.filterMap fun (line, outcome) =>
        outcome.fault.map fun fault => .report (Report.ofFault line none fault) := by
  induction runs with
  | nil => rfl
  | cons run rest ih =>
    obtain ⟨line, session, fault⟩ := run
    rw [notices_cons, List.filter_append, ih, Outcome.filter_isMessage_notices,
      List.filterMap_cons]
    cases fault <;> rfl

theorem transcribes_hold (console : Console) (level : Level) (input : ByteArray) :
    let lines := splitAfterLineFeeds input
    Transcribes console level lines (effects console.environment (spoken lines))
      (hold console level input) := by
  intro lines
  obtain ⟨environment, converse_eq⟩ := exists_converse_eq (console.print banner) lines
  have noted : (converse (console.print banner) lines).notices.toList =
      console.notices.toList ++ notices (effects console.environment (spoken lines)) ++
        (exit lines).notices := by
    rw [converse_eq]
    simp [Console.added, Console.print]
  have exitMessages : (exit lines).notices.filter Notice.isMessage = (exit lines).notices := by
    cases exit lines <;> rfl
  refine ⟨rfl, ?_, congrArg (List.filter _) noted, ?_⟩
  · rw [hold, converse_eq, ← banner_toUTF8]
    simp [Invocation.ofConsole, Console.added, Console.print, ByteArray.append_assoc]
  · rw [hold, Invocation.filter_isMessage_ofConsole, noted, List.filter_append, List.filter_append,
      filter_isMessage_notices, exitMessages]

/-- Behind the line that ends a dialogue nothing is read. -/
theorem converse_append {lines : List ByteArray} (ends : ∃ line ∈ lines, endsAt line = true)
    (console : Console) (more : List ByteArray) :
    converse console (lines ++ more) = converse console lines := by
  induction lines generalizing console with
  | nil =>
    obtain ⟨line, member, -⟩ := ends
    exact absurd member List.not_mem_nil
  | cons bytes rest ih =>
    rw [List.cons_append, converse, converse]
    cases endsHere : endsAt bytes with
    | true => rw [answer_of_endsAt _ endsHere]
    | false =>
      obtain ⟨line, saying⟩ := exists_said_of_goesOn endsHere
      have endsLater : ∃ line ∈ rest, endsAt line = true := by
        obtain ⟨last, member, endsLast⟩ := ends
        rcases List.mem_cons.mp member with rfl | later
        · rw [endsHere] at endsLast
          cases endsLast
        · exact ⟨last, later, endsLast⟩
      rw [answer_of_said _ saying endsHere]
      exact ih endsLater _

/-- **A dialogue runs the lines of its input in order, up to the one that ends it.**

The input is cut after every line feed, and each line is trimmed if it is a text; there is only one
way to do so.  Whatever the console and the environment are on which a dialogue starts, it ends with
status 0.  It writes the banner, then a prompt for each line in front of the one that ends it, with
what the line writes behind it, and then a last prompt with a farewell, with nothing or with a line
feed.  Every line that fails leaves one report, which is made against the line as it is run, and a
line that is no text leaves a message at the end.  A line is run on the bindings that there were at
the start and on all those that the lines before it have made.  Whatever follows the line that ends
the dialogue makes no difference.  The dialogues that are asked for on the command line are of this
kind. -/
theorem hold_transcribes (console : Console) (level : Level) (input : ByteArray) :
    let lines := splitAfterLineFeeds input
    let runs := effects console.environment (spoken lines)
    let dialogue := hold console level input
    (∀ cut, CutsAfterLineFeeds input.data.toList cut ↔ cut = lines) ∧
      (∀ bytes line, said? bytes = some line ↔
        ∃ text : String, text.toUTF8 = bytes ∧ TrimsTo text line) ∧
      Transcribes console level lines runs dialogue ∧
      (∀ first second, spoken lines = first ++ second →
        let before := effects console.environment first
        runs = before ++ effects (console.environment.replay (boundIn before)) second) ∧
      (input.data.toList.getLast? = some 10 → (∃ line ∈ lines, endsAt line = true) →
        ∀ more, hold console level (input ++ more) = dialogue) ∧
      ∀ arguments read request, Request.ofArguments arguments = .ok request →
        request.begin read = .dialogue console → request.level = level →
          Invocation.run arguments read input = dialogue := by
  intro lines runs dialogue
  refine ⟨fun cut => cutsAfterLineFeeds_iff, fun bytes line => said?_eq_some_iff,
    transcribes_hold console level input, ?_, ?_, ?_⟩
  · intro first second spoken_eq before
    rw [← effects_append, ← spoken_eq]
  · intro feeds ends more
    show hold console level (input ++ more) = hold console level input
    rw [hold, hold, splitAfterLineFeeds_append feeds, converse_append ends]
  · rintro arguments read request asked begins rfl
    rw [Invocation.run, asked]
    dsimp only
    rw [Invocation.ofRequest, begins]
    rfl

/-- The second line fails behind what it writes, the third one is blank, and what follows the fourth
one is not run. -/
theorem hold_transcribes_quit :
    let input := "x = \"a\";\n print x; print y;\n\n quit\n".toUTF8
    let dialogue := hold .initial .warn input
    dialogue.output = Sink.linesBytes ["Quill Interpreter v0.1.0",
        "Type 'exit' or press Ctrl+D to quit", "", "> x = a", "> a", "> > Goodbye!"] ∧
      (dialogue.notices.filter Notice.isMessage).length = 1 ∧
      hold .initial .warn (input ++ "print x;\n".toUTF8) = dialogue ∧
      Invocation.run ["-i"] (fun _ => .error .missing) input = dialogue := by
  intro input dialogue
  obtain ⟨-, -, transcribed, -, ignored, asked⟩ := hold_transcribes .initial .warn input
  have ends : ∃ line ∈ splitAfterLineFeeds input, endsAt line = true :=
    List.any_eq_true.mp (by decide +kernel)
  refine ⟨?_, ?_, ignored (by decide +kernel) ends _, asked _ _ _ rfl rfl rfl⟩
  · rw [transcribed.output_eq]
    decide +kernel
  · rw [transcribed.messages_eq]
    decide +kernel

end Dialogue

end PrintLang
