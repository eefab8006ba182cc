import PrintLang.Proofs.Listing
import PrintLang.Proofs.Numbering

/-!
# Layout

What a program does depends on its words and on nothing else.  Two sources whose tokens have the
same words, in the same order, write the same bytes, bind the same names, log the same events and
fail for the same reason, however their tokens are laid out.

The two runs are not compared with each other but with a third one, of the numbered tokens.  Listing
and running them has the same effects, since no position is looked at, and the span of a fault is
moved along.  What is left out of the comparison are warnings, which say where a quote is, and the
faults of a listing, which are at the first character in both sources.

## Main Definitions

* `Session.runTokens` — running the statements of some tokens, with something before and after it
* `Fault.Corresponds`, `Outcome.Corresponds` — the same fault and the same outcome elsewhere

## Main Statements

* `Script.prepare_eq_of_words` — a listing shows words only
* `Session.runTokens_corresponds` — running depends on words only
* `Script.layout_irrelevant` — lines and scripts with the same words do the same
-/

namespace PrintLang

/-! ## Running tokens -/

/-- Two faults are the same but for their spans, which are at the same tokens of two lists. -/
structure Fault.Corresponds (tokens other : List Token) (fault otherFault : Fault) : Prop where
  cause_eq : fault.cause = otherFault.cause
  help_eq : fault.help = otherFault.help
  span : Span.Corresponds tokens other fault.span otherFault.span

/-- Two outcomes are the same but for the span of the fault, if there is one. -/
structure Outcome.Corresponds (tokens other : List Token) (outcome otherOutcome : Outcome) :
    Prop where
  session_eq : outcome.session = otherOutcome.session
  faults : (outcome.fault = none ∧ otherOutcome.fault = none) ∨
    ∃ fault otherFault, outcome.fault = some fault ∧ otherOutcome.fault = some otherFault ∧
      fault.Corresponds tokens other otherFault

/-- Runs the statements of some tokens, if they are a program.  Before that something is done that
depends on the number of statements, and afterwards something else. -/
def Session.runTokens (before : Nat → Session → Session) (after : Session → Session)
    (tokens : List Token) (session : Session) : Outcome :=
  match Tree.ofTokens tokens with
  | .error fault => ⟨session, some fault⟩
  | .ok statements =>
    ((before statements.length session).interpret statements).andThen fun session =>
      ⟨after session, none⟩

/-- A list of tokens is read like the numbered tokens with its words. -/
theorem Tree.ofTokens_eq_numbered (tokens : List Token) :
    Tree.ofTokens tokens =
      (Relocation.of tokens).reading []
        (Tree.ofTokens (Token.numbered (tokens.map Token.word))) := by
  have moved := Tree.ofTokens_relocate (.of tokens) (Token.numbered (tokens.map Token.word))
  rwa [Token.relocate_numbered] at moved

section Words

variable {tokens other : List Token} (same : other.map Token.word = tokens.map Token.word)
include same

/-- Running tokens depends on their words only. -/
theorem Session.runTokens_corresponds (before : Nat → Session → Session)
    (after : Session → Session) (session : Session) :
    (runTokens before after tokens session).Corresponds tokens other
      (runTokens before after other session) := by
  have read := Tree.ofTokens_eq_numbered tokens
  have otherRead := Tree.ofTokens_eq_numbered other
  rw [same] at otherRead
  unfold runTokens
  rw [read, otherRead]
  cases numbered : Tree.ofTokens (Token.numbered (tokens.map Token.word)) with
  | error fault =>
    have spans := Fault.corresponds_of_refused same (Token.refused_of_ofTokens numbered)
    refine ⟨rfl, Or.inr ⟨_, _, rfl, rfl, ?_, ?_, spans⟩⟩
    · rw [Relocation.cause_refusal, Relocation.cause_refusal]
    · rw [Relocation.help_refusal, Relocation.help_refusal]
  | ok statements =>
    obtain ⟨program, tokens_eq, rfl⟩ := Tree.exists_derivation_of_ofTokens numbered
    simp only [Relocation.reading, List.nil_append, List.length_map, Session.interpret_relocate]
    rcases run_eq : (before program.length session).interpret (program.map Statement.tree) with
      ⟨last, none | fault⟩
    · exact ⟨rfl, Or.inl ⟨rfl, rfl⟩⟩
    · obtain ⟨statement, isStatement, node, member, span_eq⟩ := exists_node_of_interpret run_eq
      have spans := Tree.corresponds_of_node same tokens_eq isStatement member
      rw [← span_eq] at spans
      exact ⟨rfl, Or.inr ⟨_, _, rfl, rfl, rfl, rfl, spans⟩⟩

end Words

/-! ## Listings -/

theorem Token.display_relocate (relocation : Relocation) (token : Token) :
    (token.relocate relocation).display = token.display := rfl

theorem Tree.display_relocate (relocation : Relocation) (tree : Tree) :
    (tree.relocate relocation).display = tree.display := by
  induction tree with
  | number | text | reference => rfl
  | assign name value span ih =>
    exact congrArg (fun shown => "Assign(" ++ name ++ " = " ++ shown ++ ")") ih
  | print value span ih => exact congrArg (fun shown => "Print(" ++ shown ++ ")") ih
  | operation left operator right span ihLeft ihRight =>
    have shown_eq := congrArg₂ (fun shown otherShown =>
      "BinaryOp(" ++ shown ++ " " ++ operator.symbol ++ " " ++ otherShown ++ ")") ihLeft ihRight
    exact shown_eq

namespace Script

/-- A list of moved items is shown like the items. -/
theorem list_map {α : Type} {display : α → String} {move : α → α}
    (display_move : ∀ item, display (move item) = display item) (session : Session)
    (requested : Bool) (heading : String) (items : List α) :
    list session requested heading display (items.map move) =
      list session requested heading display items := by
  have displays_eq : (items.map move).map display = items.map display := by
    rw [List.map_map]
    exact List.map_congr_left fun item _ => display_move item
  rw [list, list, displays_eq]

theorem prepare_relocate (relocation : Relocation) (dump : Dump) (tokens : List Token) :
    prepare dump (tokens.map (Token.relocate relocation)) = prepare dump tokens := by
  funext session
  unfold prepare listTokens
  rw [list_map (Token.display_relocate relocation), List.length_map, Tree.ofTokens_relocate]
  cases Tree.ofTokens tokens with
  | error fault => rfl
  | ok statements =>
    dsimp only [Relocation.reading]
    unfold listStatements
    simp only [List.nil_append, List.length_map, list_map (Tree.display_relocate relocation)]

/-- A listing shows words only. -/
theorem prepare_eq_of_words {tokens other : List Token}
    (same : other.map Token.word = tokens.map Token.word) (dump : Dump) :
    prepare dump tokens = prepare dump other := by
  rw [← Token.relocate_numbered tokens, ← Token.relocate_numbered other, same, prepare_relocate,
    prepare_relocate]

end Script

/-! ## Without warnings -/

/-- An event that is no warning. -/
def Event.isNoWarning (event : Event) : Bool :=
  event.level ≠ .warn

theorem Session.keep_noteOpenQuote (session : Session) (scan : Scan) :
    (session.noteOpenQuote scan).keep Event.isNoWarning = session.keep Event.isNoWarning := by
  unfold noteOpenQuote
  split
  · exact Session.keep_record_of_not rfl session
  · rfl

namespace Script

/-- Nothing but warnings is left out of the log of a listing. -/
theorem keeps_list {α : Type} (requested : Bool) (heading : String) (display : α → String)
    (items : List α) :
    Keeps Event.isNoWarning (list · requested heading display items)
      (list · requested heading display items) := by
  unfold list
  cases requested with
  | false => exact .done
  | true => exact .emitAll _ _

theorem keeps_prepare (dump : Dump) (tokens : List Token) :
    Keeps Event.isNoWarning (prepare dump tokens) (prepare dump tokens) := by
  have scanned := Keeps.record (fun _ => .scanned tokens.length) (fun _ => rfl)
    (fun _ => rfl) (keeps_list dump.tokens "--- Tokens ---" Token.display tokens)
  intro session
  unfold prepare
  cases Tree.ofTokens tokens with
  | error fault => exact scanned.andThen .done session
  | ok statements =>
    have parsed := Keeps.record (fun _ => .parsed statements.length) (fun _ => rfl)
      (fun _ => rfl) (keeps_list dump.statements "--- AST ---" Tree.display statements)
    exact scanned.andThen (parsed.andThen (keeps_list _ _ _ _)) session

theorem keeps_complete (tokens : List Token) :
    Keeps Event.isNoWarning (complete tokens) (complete tokens) := by
  intro session
  unfold complete
  cases Tree.ofTokens tokens with
  | error fault => rfl
  | ok statements =>
    have done : Keeps Event.isNoWarning (fun session => ⟨session, none⟩)
      (fun session => ⟨session, none⟩) := .done
    have finished := done.record (fun session => .finished session.environment.size)
      (fun _ => rfl) (fun _ => rfl)
    exact (Keeps.interpret (fun _ _ => rfl) statements).andThen finished session

/-- But for warnings, a script is prepared and completed in a session of its own. -/
theorem keep_run {source : String} {scan : Scan} (scans : Token.scan source = .ok scan)
    (dump : Dump) (sink : Sink) :
    (run dump source sink).keep Event.isNoWarning =
      (prepare dump scan.tokens (Session.fresh sink)).andThen (complete scan.tokens) := by
  have kept := (keeps_prepare dump scan.tokens).andThen (keeps_complete scan.tokens)
    ((Session.fresh sink).noteOpenQuote scan)
  rw [Session.keep_noteOpenQuote] at kept
  rw [run_eq scans]
  exact kept

end Script

/-- But for warnings, running a line is running its tokens. -/
theorem Session.keep_runLine {source : String} {scan : Scan} (scans : Token.scan source = .ok scan)
    (session : Session) :
    (session.runLine source).keep Event.isNoWarning =
      runTokens (fun count session => session.record (.parsedLine count)) id scan.tokens
        (session.keep Event.isNoWarning) := by
  rw [runLine, scans, ← session.keep_noteOpenQuote scan]
  unfold runTokens
  dsimp only
  cases Tree.ofTokens scan.tokens with
  | error fault => rfl
  | ok statements =>
    have runs : Keeps Event.isNoWarning (·.interpret statements) (·.interpret statements) :=
      .interpret (fun _ _ => rfl) statements
    have parsed := runs.record (fun _ => .parsedLine statements.length) (fun _ => rfl)
      (fun _ => rfl)
    exact (parsed _).trans (Outcome.andThen_done_right _).symm

/-- Two sessions are the same but for the warnings in their logs. -/
structure Session.Agrees (session other : Session) : Prop where
  environment_eq : session.environment = other.environment
  sink_eq : session.sink = other.sink
  log_eq : session.log.filter (·.level ≠ .warn) = other.log.filter (·.level ≠ .warn)

theorem Session.agrees_of_keep {session other : Session}
    (same : session.keep Event.isNoWarning = other.keep Event.isNoWarning) :
    session.Agrees other := by
  have environment_eq := congrArg environment same
  have sink_eq := congrArg sink same
  have log_eq := congrArg log same
  exact ⟨environment_eq, sink_eq, log_eq⟩

/-- What corresponds without warnings agrees but for them. -/
theorem Outcome.Corresponds.of_keep {tokens other : List Token} {outcome otherOutcome : Outcome}
    (corresponds : (outcome.keep Event.isNoWarning).Corresponds tokens other
      (otherOutcome.keep Event.isNoWarning)) :
    outcome.session.Agrees otherOutcome.session ∧
      ((outcome.fault = none ∧ otherOutcome.fault = none) ∨
        ∃ fault otherFault, outcome.fault = some fault ∧ otherOutcome.fault = some otherFault ∧
          fault.Corresponds tokens other otherFault) :=
  ⟨Session.agrees_of_keep corresponds.session_eq, corresponds.faults⟩

/-! ## Lines and scripts -/

/-- The listing of a script is refused with the fault with which preparing it stops. -/
theorem Script.fault_prepare {source : String} {scan : Scan} (scans : Token.scan source = .ok scan)
    (dump : Dump) (sink : Sink) :
    (prepare dump scan.tokens (Session.fresh sink)).fault =
      ((Session.fresh sink).emitAll listingSpan (listing dump source)).fault := by
  have traced := traces_prepare dump scan.tokens (Session.fresh sink)
  rw [show (Session.fresh sink).traced = Session.fresh sink from rfl] at traced
  have fault_eq := congrArg Outcome.fault traced
  rw [listing, scans]
  exact fault_eq

/-- **Layout has no influence on what a program does.**

Two sources have tokens with the same words, that is, with the same kinds and lexemes in the same
order.  As lines, in any session, they leave the same environment, the same output and the same
events that are no warnings.  So they do as scripts, for all requested listings and for every sink,
whatever it takes and however it refuses the rest.  Either both run to their ends, or both fail with
the same cause, and thus the same message, and with the same help.

The spans of the two faults are at the same tokens: both reach from the start of a token to the end
of one that is not before it, or are the last characters of a token.  Only the fault of a listing is
at no token; it is the same fault in both scripts. -/
theorem Script.layout_irrelevant {first second : String} {scan other : Scan}
    (scans : Token.scan first = .ok scan) (otherScans : Token.scan second = .ok other)
    (same : scan.tokens.map Token.word = other.tokens.map Token.word) :
    (∀ session : Session,
      let one := session.runLine first
      let two := session.runLine second
      one.session.Agrees two.session ∧
        ((one.fault = none ∧ two.fault = none) ∨
          ∃ fault otherFault, one.fault = some fault ∧ two.fault = some otherFault ∧
            fault.Corresponds scan.tokens other.tokens otherFault)) ∧
    ∀ dump sink,
      let one := run dump first sink
      let two := run dump second sink
      let listed := (Session.fresh sink).emitAll listingSpan (listing dump first)
      one.session.Agrees two.session ∧
        ((one.fault = none ∧ two.fault = none) ∨
          ∃ fault otherFault, one.fault = some fault ∧ two.fault = some otherFault ∧
            ((listed.fault = none ∧ fault.Corresponds scan.tokens other.tokens otherFault) ∨
              (listed.fault = some fault ∧ otherFault = fault))) := by
  constructor
  · intro session one two
    refine Outcome.Corresponds.of_keep ?_
    rw [Session.keep_runLine scans, Session.keep_runLine otherScans]
    exact Session.runTokens_corresponds same.symm _ _ _
  · intro dump sink one two listed
    have one_eq : one.keep _ = _ := keep_run scans dump sink
    have two_eq : two.keep _ = _ := keep_run otherScans dump sink
    have listed_eq : _ = listed.fault := fault_prepare scans dump sink
    rw [← prepare_eq_of_words same.symm] at two_eq
    clear_value one two listed
    rcases prepared : prepare dump scan.tokens (Session.fresh sink) with ⟨after, none | fault⟩
    · rw [prepared, Outcome.andThen_done] at one_eq two_eq
      rw [prepared] at listed_eq
      have completed : (complete scan.tokens after).Corresponds scan.tokens other.tokens
          (complete other.tokens after) :=
        Session.runTokens_corresponds same.symm (fun _ session => session)
          (fun session => session.record (.finished session.environment.size)) after
      rw [← one_eq, ← two_eq] at completed
      obtain ⟨agrees, faults⟩ := completed.of_keep
      refine ⟨agrees, faults.imp_right ?_⟩
      rintro ⟨fault, otherFault, one_fault, two_fault, corresponds⟩
      exact ⟨fault, otherFault, one_fault, two_fault, Or.inl ⟨listed_eq.symm, corresponds⟩⟩
    · rw [prepared, Outcome.andThen_stopped] at one_eq two_eq
      rw [prepared] at listed_eq
      have one_fault := congrArg Outcome.fault one_eq
      have two_fault := congrArg Outcome.fault two_eq
      refine ⟨Session.agrees_of_keep (congrArg Outcome.session (one_eq.trans two_eq.symm)), ?_⟩
      exact Or.inr ⟨fault, fault, one_fault, two_fault, Or.inr ⟨listed_eq.symm, rfl⟩⟩

/-- Two layouts of a statement that prints a name.  The name is not bound; it is the second token in
both, at different places. -/
theorem Script.layout_irrelevant_spaces :
    let tokens : List Token := [⟨.printWord, "print", ⟨0, 5⟩⟩, ⟨.name, "x", ⟨6, 7⟩⟩,
      ⟨.semicolon, ";", ⟨7, 8⟩⟩, ⟨.endOfInput, "", ⟨7, 8⟩⟩]
    let other : List Token := [⟨.printWord, "print", ⟨0, 5⟩⟩, ⟨.name, "x", ⟨7, 8⟩⟩,
      ⟨.semicolon, ";", ⟨9, 10⟩⟩, ⟨.endOfInput, "", ⟨9, 10⟩⟩]
    Token.scan "print x;" = .ok ⟨tokens, none⟩ ∧ Token.scan "print  x ;" = .ok ⟨other, none⟩ ∧
      tokens.map Token.word = other.map Token.word ∧
      Fault.Corresponds tokens other (.undefinedVariable ⟨6, 7⟩ "x")
        (.undefinedVariable ⟨7, 8⟩ "x") := by
  intro tokens other
  have scans : Token.scan "print x;" = .ok ⟨tokens, none⟩ := rfl
  have otherScans : Token.scan "print  x ;" = .ok ⟨other, none⟩ := rfl
  have same : tokens.map Token.word = other.map Token.word := rfl
  refine ⟨scans, otherScans, same, ?_⟩
  obtain ⟨lines, -⟩ := Script.layout_irrelevant scans otherScans same
  obtain ⟨-, ⟨noFault, -⟩ | ⟨fault, otherFault, fault_eq, otherFault_eq, corresponds⟩⟩ :=
    lines (Session.fresh (.empty none))
  · cases noFault
  · cases fault_eq
    cases otherFault_eq
    exact corresponds

end PrintLang
