import PrintLang.Proofs.Transcript

/-!
# Scripts in front of a dialogue

A script can be run for itself or in front of a dialogue.  The two ways differ: for itself it is run
as a script, in front of a dialogue as if it were the first line.  But for the events that tell how
far it gets, both do the same, so the dialogue goes on with the environment that the script would
have left, and shows the same as a dialogue that starts there.

## Main Definitions

* `Request.RunsScript`, `Request.Preloads` — the two kinds of requests
* `Console.resumed` — a console that shows nothing and goes on with some bindings
* `Report.Tells` — what a report tells about a fault in a file
* `Invocation.HandsOver` — what the two ways to run a script come to

## Main Statements

* `Script.run_traced_eq_runLine` — without listings a script does what its text does as a line
* `Dialogue.hold_resumed` — what has been shown before a dialogue makes no difference to it
* `Invocation.run_hands_over` — the two ways to run a script agree
-/

namespace PrintLang

/-! ## Scripts without listings -/

namespace Script

theorem listing_of_nothing (source : String) : listing ⟨false, false⟩ source = [] := by
  unfold listing
  cases Token.scan source with
  | error fault => rfl
  | ok scan =>
    dsimp only
    cases Tree.ofTokens scan.tokens <;> rfl

/-- But for the log, a script without listings does what its text does as a line. -/
theorem run_traced_eq_runLine (source : String) :
    (run ⟨false, false⟩ source (.empty none)).traced =
      ((Session.fresh (.empty none)).runLine source).traced := by
  rw [run_traced, listing_of_nothing, traces_runLine]
  rfl

end Script

/-! ## Dialogues that go on -/

/-- A console that goes on with some bindings, and shows nothing yet. -/
def Console.resumed (environment : Environment) : Console :=
  ⟨environment, ByteArray.empty, #[]⟩

namespace Dialogue

/-- What has been shown before a dialogue makes no difference to it. -/
theorem hold_resumed (console : Console) (level : Level) (input : ByteArray) :
    let fresh := hold (.resumed console.environment) level input
    (hold console level input).output = console.output ++ fresh.output ∧
      (hold console level input).notices.filter Notice.isMessage =
        console.notices.toList.filter Notice.isMessage ++
          fresh.notices.filter Notice.isMessage := by
  intro fresh
  have whole := transcribes_hold console level input
  have alone := transcribes_hold (.resumed console.environment) level input
  constructor
  · rw [whole.output_eq, alone.output_eq]
    simp [Console.resumed, ByteArray.append_assoc]
  · rw [whole.messages_eq, alone.messages_eq]
    simp [Console.resumed]

end Dialogue

/-! ## Requests -/

namespace Request

/-- The request runs a script, without listings and without a dialogue. -/
structure RunsScript (request : Request) (file : String) : Prop where
  file_eq : request.file = some file
  interactive_eq : request.interactive = false
  dump_eq : request.dump = ⟨false, false⟩

/-- The request runs a script in front of a dialogue. -/
structure Preloads (request : Request) (file : String) : Prop where
  file_eq : request.file = some file
  interactive_eq : request.interactive = true

variable {request : Request} {file : String} {read : String → Except ReadFailure ByteArray}

/-- A file that cannot be read is all that there is to say, whatever the request asks for. -/
theorem begin_of_unreadable (file_eq : request.file = some file) {failure : ReadFailure}
    (unreadable : textOf (read file) = .error failure) :
    request.begin read = .complete 1 (Console.initial.note (.line (failureLine file failure))) := by
  rw [begin, file_eq]
  dsimp only
  rw [unreadable]

variable {source : String} (readable : textOf (read file) = .ok source)
include readable

theorem RunsScript.begin_eq (runs : request.RunsScript file) :
    let start := Console.initial.note (.event (.loaded file source.utf8ByteSize))
    let outcome := Script.run ⟨false, false⟩ source (.empty none)
    request.begin read =
      .complete (if outcome.fault.isSome then 1 else 0)
        (start.finish source (some file) outcome) := by
  rw [begin, runs.file_eq]
  dsimp only
  rw [readable]
  dsimp only
  rw [runs.interactive_eq, if_neg Bool.false_ne_true, runScript, runs.dump_eq]
  rfl

theorem Preloads.begin_eq (preloads : request.Preloads file) :
    let start := Console.initial.note (.event (.loaded file source.utf8ByteSize))
    request.begin read = .dialogue (start.runLine source (some file)) := by
  rw [begin, preloads.file_eq]
  dsimp only
  rw [readable]
  dsimp only
  rw [if_pos preloads.interactive_eq]

end Request

/-! ## The two ways to run a script -/

/-- What a report tells about a fault in a file: the name of the file, and the stage, the message,
the place and the advice of the fault. -/
structure Report.Tells (report : Report) (file source : String) (fault : Fault) : Prop where
  file_eq : report.file = file
  stage_eq : report.stage = fault.cause.stage
  message_eq : report.message = fault.message
  location_eq : report.location = locate source fault.span.start
  note_eq : report.note = fault.help.map ("help: " ++ ·)

theorem Report.tells_ofFault (file source : String) (fault : Fault) :
    (ofFault source (some file) fault).Tells file source fault :=
  ⟨rfl, rfl, rfl, rfl, rfl⟩

namespace Invocation

/-- What is left of a run if the file cannot be read. -/
def unreadable (file : String) (failure : ReadFailure) : Invocation :=
  ⟨1, ByteArray.empty, [.line (Request.failureLine file failure)]⟩

/-- What a script comes to, and what a dialogue comes to that it is run in front of. -/
structure HandsOver (file source : String) (level : Level) (input : ByteArray)
    (outcome : Outcome) (script dialogue : Invocation) : Prop where
  status_eq : script.status = if outcome.fault.isSome then 1 else 0
  output_eq : script.output = outcome.session.sink.written
  messages_eq : script.notices.filter Notice.isMessage =
    outcome.fault.toList.map fun fault => .report (Report.ofFault source (some file) fault)
  messages_tell : ∀ notice ∈ script.notices.filter Notice.isMessage, ∃ fault report,
    outcome.fault = some fault ∧ notice = .report report ∧ report.Tells file source fault
  environment_eq : outcome.session.environment =
    Environment.empty.replay ((Session.fresh (.empty none)).boundBy source)
  nothing_left : (∀ statements, ¬ Reads source statements) →
    outcome.session.environment = .empty
  dialogue_status_eq : dialogue.status = 0
  dialogue_output_eq : dialogue.output =
    script.output ++
      (Dialogue.hold (.resumed outcome.session.environment) level input).output
  dialogue_messages_eq : dialogue.notices.filter Notice.isMessage =
    script.notices.filter Notice.isMessage ++
      (Dialogue.hold (.resumed outcome.session.environment) level input).notices.filter
        Notice.isMessage

/-- The two ways to run a script that has been read: they differ in the log. -/
theorem handsOver_of_source (file source : String) (level other : Level) (input : ByteArray) :
    let start := Console.initial.note (.event (.loaded file source.utf8ByteSize))
    let outcome := Script.run ⟨false, false⟩ source (.empty none)
    HandsOver file source level input outcome
      (ofConsole (if outcome.fault.isSome then 1 else 0) other
        (start.finish source (some file) outcome))
      (Dialogue.hold (start.runLine source (some file)) level input) := by
  intro start outcome
  have same := Script.run_traced_eq_runLine source
  have fault_eq : outcome.fault = ((Session.fresh (.empty none)).runLine source).fault :=
    congrArg (·.fault) same
  have environment_eq : outcome.session.environment =
      (start.runLine source (some file)).environment :=
    congrArg (·.session.environment) same
  have written_eq : outcome.session.sink.written = (start.runLine source (some file)).output :=
    congrArg (·.session.sink.written) same
  have run := (Session.fresh (.empty none)).extends_call (.line source)
  have replayed : outcome.session.environment =
      Environment.empty.replay ((Session.fresh (.empty none)).boundBy source) :=
    environment_eq.trans run.environment_eq
  have messages (outcome : Outcome) :
      (start.finish source (some file) outcome).notices.toList.filter Notice.isMessage =
        outcome.fault.toList.map fun fault =>
          .report (Report.ofFault source (some file) fault) := by
    rw [Console.notices_finish, Array.toList_append, List.filter_append,
      Outcome.filter_isMessage_notices]
    rfl
  obtain ⟨holdOutput, holdMessages⟩ :=
    Dialogue.hold_resumed (start.runLine source (some file)) level input
  rw [← environment_eq] at holdOutput holdMessages
  constructor
  case status_eq => rfl
  case output_eq => rfl
  case dialogue_status_eq => rfl
  case environment_eq => exact replayed
  case messages_eq => rw [filter_isMessage_ofConsole, messages]
  case messages_tell =>
    intro notice member
    rw [filter_isMessage_ofConsole, messages] at member
    obtain ⟨fault, isFault, rfl⟩ := List.mem_map.mp member
    exact ⟨fault, _, Option.mem_toList.mp isFault, rfl, Report.tells_ofFault file source fault⟩
  case dialogue_output_eq => rw [holdOutput, ← written_eq]; rfl
  case dialogue_messages_eq =>
    rw [holdMessages, filter_isMessage_ofConsole, messages, Console.runLine, messages, fault_eq]
    rfl
  case nothing_left =>
    intro unreadable
    rw [replayed, Session.boundBy, Call.program]
    cases read_eq : Script.read source with
    | error fault => rfl
    | ok statements => exact absurd (Script.read_eq_ok_iff.mp read_eq) (unreadable statements)

/-- **A script does the same for itself and in front of a dialogue.**

A script that can be read is run for itself without listings, or in front of a dialogue, where it
makes no difference whether listings are asked for.  For itself, the status tells whether it fails,
and the output is that of the run.  The dialogue ends with status 0.  It writes what the script
writes and then what a dialogue writes that starts with the environment that the script leaves; that
holds the bindings that the script has made, and none if it is no program.  The report of a script
that fails is the same both times, and it names the file and tells what the fault is; in front of a
dialogue it comes before all that the dialogue has to report.  If the file cannot be read, both say
so, with status 1 and without any output. -/
theorem run_hands_over {file : String} {scriptArguments dialogueArguments : List String}
    {plain preloading : Request} (asksScript : Request.ofArguments scriptArguments = .ok plain)
    (asksDialogue : Request.ofArguments dialogueArguments = .ok preloading)
    (runsScript : plain.RunsScript file) (preloads : preloading.Preloads file)
    (read : String → Except ReadFailure ByteArray) (input : ByteArray) :
    let script := run scriptArguments read input
    let dialogue := run dialogueArguments read input
    match Request.textOf (read file) with
    | .ok source =>
      HandsOver file source preloading.level input (Script.run ⟨false, false⟩ source (.empty none))
        script dialogue
    | .error failure =>
      script = unreadable file failure ∧ dialogue = unreadable file failure := by
  intro script dialogue
  have script_eq : script = ofRequest plain read input := by
    show run scriptArguments read input = _
    rw [run, asksScript]
  have dialogue_eq : dialogue = ofRequest preloading read input := by
    show run dialogueArguments read input = _
    rw [run, asksDialogue]
  rw [ofRequest] at script_eq dialogue_eq
  cases readable : Request.textOf (read file) with
  | error failure =>
    rw [Request.begin_of_unreadable runsScript.file_eq readable] at script_eq
    rw [Request.begin_of_unreadable preloads.file_eq readable] at dialogue_eq
    exact ⟨script_eq, dialogue_eq⟩
  | ok source =>
    rw [runsScript.begin_eq readable] at script_eq
    rw [preloads.begin_eq readable] at dialogue_eq
    dsimp only at script_eq dialogue_eq ⊢
    rw [script_eq, dialogue_eq]
    exact handsOver_of_source file source preloading.level plain.level input

/-- The script binds `x` before it fails, and is then asked for the value in a dialogue. -/
theorem run_hands_over_unbound :
    let read (file : String) : Except ReadFailure ByteArray :=
      if file = "a.q" then .ok "x = \"a\"; print y;".toUTF8 else .error .missing
    let input := "print x;\n".toUTF8
    let script := run ["a.q"] read input
    let dialogue := run ["--ast", "-i", "a.q"] read input
    script.status = 1 ∧ script.output = Sink.linesBytes ["x = a"] ∧ dialogue.status = 0 ∧
      dialogue.output = Sink.linesBytes ["x = a", "Quill Interpreter v0.1.0",
        "Type 'exit' or press Ctrl+D to quit", "", "> a", "> "] ∧
      (script.notices.filter Notice.isMessage).length = 1 ∧
      (∀ notice ∈ script.notices.filter Notice.isMessage, ∃ report, notice = .report report ∧
        report.file = "a.q" ∧ report.message = "Undefined variable 'y'") ∧
      (dialogue.notices.filter Notice.isMessage).length = 1 ∧
      run ["b.q"] read input = unreadable "b.q" .missing := by
  intro read input script dialogue
  have asks : Request.ofArguments ["a.q"] = .ok ⟨some "a.q", false, false, false, 0⟩ := by
    decide +kernel
  have asksDialogue : Request.ofArguments ["--ast", "-i", "a.q"] =
      .ok ⟨some "a.q", true, false, true, 0⟩ := by
    decide +kernel
  have asksMissing : Request.ofArguments ["b.q"] = .ok ⟨some "b.q", false, false, false, 0⟩ := by
    decide +kernel
  have asksMissingDialogue : Request.ofArguments ["-i", "b.q"] =
      .ok ⟨some "b.q", true, false, false, 0⟩ := by
    decide +kernel
  have handed := run_hands_over asks asksDialogue ⟨rfl, rfl, rfl⟩ ⟨rfl, rfl⟩ read input
  have missing :=
    run_hands_over asksMissing asksMissingDialogue ⟨rfl, rfl, rfl⟩ ⟨rfl, rfl⟩ read input
  have textOf_eq : Request.textOf (read "a.q") = .ok "x = \"a\"; print y;" := by
    decide +kernel
  rw [textOf_eq] at handed
  refine ⟨?_, ?_, handed.dialogue_status_eq, ?_, ?_, ?_, ?_, missing.1⟩
  · rw [handed.status_eq]
    decide +kernel
  · rw [handed.output_eq]
    decide +kernel
  · rw [handed.dialogue_output_eq, handed.output_eq]
    decide +kernel
  · rw [handed.messages_eq]
    decide +kernel
  · intro notice member
    obtain ⟨fault, report, fault_eq, rfl, tells⟩ := handed.messages_tell notice member
    have message_eq : (Script.run ⟨false, false⟩ "x = \"a\"; print y;" (.empty none)).fault.map
        Fault.message = some "Undefined variable 'y'" := by
      decide +kernel
    rw [fault_eq] at message_eq
    exact ⟨report, rfl, tells.file_eq, tells.message_eq.trans (Option.some.inj message_eq)⟩
  · rw [handed.dialogue_messages_eq, handed.messages_eq]
    decide +kernel

end Invocation

end PrintLang
