import PrintLang.Proofs.Grammar.Reading
import PrintLang.Proofs.Rereading
import PrintLang.Proofs.Token.Concatenation

/-!
# Programs in pieces

A program that is cut into programs of its own can be run piece by piece.  No separator is
needed where it was cut, since every piece ends with a semicolon and layout.

The stages are composed one after the other.  The tokens of two programs are those of the
first and, moved by its length, those of the second; the reader is back at the start of a
statement between them, so that the statements are composed in the same way; and statements
with moved spans run with the same effects.  For a list of pieces this is repeated from the
last one on.

What running leaves in the log beside the bindings differs, since every piece is logged as a
line of its own.  Sessions are therefore compared without these events.

## Main Definitions

* `Reads` — a source text is a program
* `Session.runLines` — running programs one after the other
* `Outcome.Joins` — the outcome of a whole program, compared with that of its pieces

## Main Statements

* `Reads.append` — two programs, one after the other, are a program
* `exists_reads_join` — so are any number of them
* `Session.runLine_join` — running a program in pieces is running it whole
-/

namespace PrintLang

/-- A source text is a program with the given statements. -/
def Reads (source : String) (statements : List Tree) : Prop :=
  ∃ scan, Token.scan source = .ok scan ∧ Tree.ofTokens scan.tokens = .ok statements

/-! ## Reading one program after another -/

theorem endsStatement_of_program (program : List Statement) :
    EndsStatement (program.flatMap Statement.tokens) := by
  induction program using List.reverseRecOn with
  | nil =>
    intro token member
    cases member
  | append_singleton program statement _ =>
    intro token member
    rw [List.flatMap_append, List.flatMap_singleton, Statement.tokens, ← List.append_assoc,
      List.getLast?_concat] at member
    obtain rfl := Option.some.inj member
    rfl

/-- The tokens of a program: its lexemes, up to the end of its text, and what the reader makes
of them. -/
structure Reads.Tokens (source : String) (statements : List Tree) (tokens : List Token) :
    Prop where
  lexes : Lexes 0 source.toList tokens .complete
  ends : EndsStatement tokens
  noEnd : ∀ token ∈ tokens, token.kind ≠ .endOfInput
  fed : ∃ stop, Reader.initial.feed tokens = .ok ⟨.start, statements.toArray, stop⟩

theorem Reads.exists_tokens {source : String} {statements : List Tree}
    (reads : Reads source statements) : ∃ tokens, Reads.Tokens source statements tokens := by
  obtain ⟨scan, scans, accepted⟩ := reads
  obtain ⟨tokens, closing, lexes, readable, tokens_eq⟩ := exists_readable_of_scan scans
  have noEnd := (lexes.segmentation readable List.drop_zero).kind_ne_endOfInput
  obtain ⟨program, same, rfl⟩ := Tree.exists_derivation_of_ofTokens accepted
  rw [tokens_eq, Token.beforeEnd_concat noEnd rfl] at same
  have ends := endsStatement_of_program program
  obtain ⟨stop, fed⟩ := Statement.leads_program program #[] 0
  rw [same] at ends fed
  obtain rfl := lexes.closing_eq_complete readable ends
  refine ⟨tokens, lexes, ends, noEnd, stop, ?_⟩
  rw [Reader.initial, fed]
  simp

theorem Reads.Tokens.scan_eq {source : String} {statements : List Tree} {tokens : List Token}
    (read : Reads.Tokens source statements tokens) :
    Token.scan source =
      .ok ⟨tokens ++ [⟨.endOfInput, "", .atEnd source.length⟩], none⟩ :=
  read.lexes.scan_eq

theorem Reads.Tokens.ofTokens_eq {source : String} {statements : List Tree}
    {tokens : List Token} (read : Reads.Tokens source statements tokens) {last : Token}
    (isEnd : last.kind = .endOfInput) : Tree.ofTokens (tokens ++ [last]) = .ok statements := by
  obtain ⟨stop, fed⟩ := read.fed
  rw [Tree.ofTokens, Token.beforeEnd_concat read.noEnd isEnd, fed]
  rfl

/-- A text that can be scanned can be scanned after a program as well.  It is read there as it is
read alone, further to the right. -/
theorem Reads.exists_scan_append {first second : String} {statements : List Tree}
    (reads : Reads first statements) {scan : Scan} (scans : Token.scan second = .ok scan) :
    ∃ whole, Token.scan (first ++ second) = .ok whole ∧
      Tree.ofTokens whole.tokens =
        (Relocation.shift first.length).reading statements (Tree.ofTokens scan.tokens) ∧
      whole.openQuote = scan.openQuote.map (· + first.length) := by
  obtain ⟨before, read⟩ := reads.exists_tokens
  obtain ⟨stop, fed⟩ := read.fed
  obtain ⟨tokens, closing, lexes, readable, -⟩ := exists_readable_of_scan scans
  have noEnd := (lexes.segmentation readable List.drop_zero).kind_ne_endOfInput
  have scan_eq := lexes.scan_eq
  have whole_eq := read.lexes.scan_append read.ends lexes
  have allNoEnd : ∀ token ∈ before ++ tokens.map (Token.relocate (.shift first.length)),
      token.kind ≠ .endOfInput :=
    List.forall_mem_append.mpr ⟨read.noEnd, Token.kind_ne_of_mem_relocate _ noEnd⟩
  have read_eq (last other : Token) (isEnd : last.kind = .endOfInput)
      (otherIsEnd : other.kind = .endOfInput) :
      Tree.ofTokens (before ++ tokens.map (Token.relocate (.shift first.length)) ++ [last]) =
        (Relocation.shift first.length).reading statements
          (Tree.ofTokens (tokens ++ [other])) := by
    rw [Tree.ofTokens_concat allNoEnd isEnd, Tree.ofTokens_concat noEnd otherIsEnd,
      Tree.ofTokens_append_relocate _ fed read.noEnd noEnd]
  cases closing with
  | complete =>
    obtain rfl := Except.ok.inj (scans.symm.trans scan_eq)
    exact ⟨_, whole_eq, read_eq _ _ rfl rfl, rfl⟩
  | openQuote start =>
    obtain rfl := Except.ok.inj (scans.symm.trans scan_eq)
    exact ⟨_, whole_eq, read_eq _ _ rfl rfl, rfl⟩
  | unusable symbol position => exact absurd rfl (readable symbol position)

/-- Two programs, one after the other, are a program.  Its statements are those of the first
one and those of the second one further to the right. -/
theorem Reads.append {first second : String} {statements others : List Tree}
    (reads : Reads first statements) (otherReads : Reads second others) :
    Reads (first ++ second)
      (statements ++ others.map (Tree.relocate (.shift first.length))) := by
  obtain ⟨scan, scans, accepted⟩ := otherReads
  obtain ⟨whole, wholeScans, read_eq, -⟩ := reads.exists_scan_append scans
  rw [accepted] at read_eq
  exact ⟨whole, wholeScans, read_eq⟩

/-- A program is run by recording its length and running its statements. -/
theorem Reads.runLine_eq {source : String} {statements : List Tree}
    (reads : Reads source statements) (session : Session) :
    session.runLine source =
      (session.record (.parsedLine statements.length)).interpret statements := by
  obtain ⟨tokens, read⟩ := reads.exists_tokens
  rw [Session.runLine, read.scan_eq]
  dsimp only
  rw [read.ofTokens_eq rfl]
  rfl

theorem Reads.runLine_traced {source : String} {statements : List Tree}
    (reads : Reads source statements) (session : Session) :
    (session.runLine source).traced = session.traced.interpret statements := by
  rw [reads.runLine_eq, Session.interpret_traced, Session.traced_record_parsedLine]

/-! ## Running programs one after the other -/

/-- Runs programs one after the other, up to the first one that fails. -/
def Session.runLines (session : Session) : List String → Outcome
  | [] => ⟨session, none⟩
  | source :: rest => (session.runLine source).andThen fun next => next.runLines rest

/-- An outcome is that of running programs one after the other, but for events that are no
bindings and for the span of a fault: it counts from the start of all programs instead of
from the start of the one that failed. -/
structure Outcome.Joins (whole : Outcome) (session : Session) (sources : List String) :
    Prop where
  traced_eq : whole.session.traced = (session.runLines sources).session.traced
  fault : (whole.fault = none ∧ (session.runLines sources).fault = none) ∨
    ∃ before failing after fault, sources = before ++ failing :: after ∧
      (session.runLines before).fault = none ∧
      ((session.runLines before).session.runLine failing).fault = some fault ∧
      (session.runLines sources).fault = some fault ∧
      whole.fault = some (fault.relocate (.shift (String.join before).length))

theorem Session.runLines_cons_of_done {session later : Session} {source : String}
    (done : session.runLine source = ⟨later, none⟩) (rest : List String) :
    session.runLines (source :: rest) = later.runLines rest := by
  rw [runLines, done, Outcome.andThen_done]

theorem Session.runLines_cons_of_stopped {session later : Session} {source : String}
    {fault : Fault} (stopped : session.runLine source = ⟨later, some fault⟩)
    (rest : List String) : session.runLines (source :: rest) = ⟨later, some fault⟩ := by
  rw [runLines, stopped, Outcome.andThen_stopped]

namespace Outcome.Joins

variable {session : Session} {source : String} {sources : List String}

/-- If the first program runs to its end, the others follow after its text. -/
theorem cons {later : Session} {whole : Outcome}
    (done : session.runLine source = ⟨later, none⟩) (joins : whole.Joins later sources) :
    (whole.relocate (.shift source.length)).Joins session (source :: sources) := by
  obtain ⟨traced_eq, fault_eq⟩ := joins
  have runLines_eq := Session.runLines_cons_of_done done
  rw [← runLines_eq] at traced_eq fault_eq
  refine ⟨traced_eq, ?_⟩
  rcases fault_eq with ⟨noFault, allDone⟩ |
    ⟨before, failing, after, fault, same, beforeDone, fails, stopped, whole_eq⟩
  · left
    refine ⟨?_, allDone⟩
    rw [relocate, noFault, Option.map_none]
  · right
    refine ⟨source :: before, failing, after, fault, ?_, ?_, ?_, stopped, ?_⟩
    · rw [same, List.cons_append]
    · rwa [runLines_eq]
    · rwa [runLines_eq]
    · rw [relocate, whole_eq, Option.map_some, Fault.relocate_shift_relocate_shift,
        String.join_cons, String.length_append, Nat.add_comm]

/-- If the first program fails, nothing follows. -/
theorem stopped {later other : Session} {fault : Fault}
    (stopped : session.runLine source = ⟨later, some fault⟩)
    (traced_eq : other.traced = later.traced) :
    (Outcome.mk other (some fault)).Joins session (source :: sources) := by
  have runLines_eq := Session.runLines_cons_of_stopped stopped sources
  refine ⟨?_, Or.inr ⟨[], source, sources, fault, rfl, rfl, ?_, ?_, rfl⟩⟩
  · rw [runLines_eq]
    exact traced_eq
  · show (session.runLine source).fault = some fault
    rw [stopped]
  · rw [runLines_eq]

end Outcome.Joins

/-- Programs, one after the other, are a program; it runs as they do, one after the other. -/
theorem exists_reads_join {sources : List String}
    (reads : ∀ source ∈ sources, ∃ statements, Reads source statements) :
    ∃ statements, Reads (String.join sources) statements ∧
      ∀ session other : Session, session.traced = other.traced →
        (session.interpret statements).Joins other sources := by
  -- The sessions are compared without other events, since the pieces log more of them.
  induction sources with
  | nil => exact ⟨[], ⟨_, rfl, rfl⟩, fun session other same => ⟨same, Or.inl ⟨rfl, rfl⟩⟩⟩
  | cons source sources ih =>
    obtain ⟨⟨first, firstReads⟩, reads⟩ := List.forall_mem_cons.mp reads
    obtain ⟨others, othersRead, joins⟩ := ih reads
    refine ⟨_, String.join_cons ▸ firstReads.append othersRead, fun session other same => ?_⟩
    have first_traced :
        (session.interpret first).traced = (other.runLine source).traced := by
      rw [Session.interpret_traced, firstReads.runLine_traced, same]
    rw [Session.interpret_append]
    rcases run_eq : other.runLine source with ⟨later, fault⟩
    rcases mine_eq : session.interpret first with ⟨mine, myFault⟩
    rw [run_eq, mine_eq, Outcome.traced, Outcome.traced, Outcome.mk.injEq] at first_traced
    obtain ⟨traced_eq, rfl⟩ := first_traced
    cases myFault with
    | none =>
      rw [Outcome.andThen_done, Session.interpret_relocate]
      exact (joins mine later traced_eq).cons run_eq
    | some fault =>
      rw [Outcome.andThen_stopped]
      exact .stopped run_eq traced_eq

/-- **Running a program in pieces is running it whole.**

Texts that are programs of their own are joined without anything between them.  The joined
program leaves the environment, the output and the bindings in the log that the pieces leave
when they are run one after the other, up to the first one that fails.  It fails if one of
them does, with the same fault, whose span is moved by the length of the pieces before. -/
theorem Session.runLine_join (session : Session) (sources : List String)
    (reads : ∀ source ∈ sources, ∃ statements, Reads source statements) :
    let whole := session.runLine (String.join sources)
    let pieces := session.runLines sources
    whole.session.environment = pieces.session.environment ∧
      whole.session.sink = pieces.session.sink ∧
      whole.session.trace = pieces.session.trace ∧
      (whole.fault = none ↔ pieces.fault = none) ∧
      ∀ fault, pieces.fault = some fault →
        ∃ before failing after, sources = before ++ failing :: after ∧
          (session.runLines before).fault = none ∧
          ((session.runLines before).session.runLine failing).fault = some fault ∧
          whole.fault = some { fault with
            span := ⟨fault.span.start + (String.join before).length,
              fault.span.stop + (String.join before).length⟩ } := by
  obtain ⟨statements, joinReads, joins⟩ := exists_reads_join reads
  have recorded := session.traced_record_parsedLine statements.length
  obtain ⟨traced_eq, fault_eq⟩ := joins _ session recorded
  rw [← joinReads.runLine_eq] at traced_eq fault_eq
  have environment_eq := congrArg environment traced_eq
  have sink_eq := congrArg sink traced_eq
  have trace_eq := congrArg log traced_eq
  refine ⟨environment_eq, sink_eq, trace_eq, ?_, ?_⟩
  · rcases fault_eq with ⟨noFault, allDone⟩ | ⟨_, _, _, fault, _, _, _, stopped, whole_eq⟩
    · exact iff_of_true noFault allDone
    · rw [whole_eq, stopped]
      exact iff_of_false (Option.some_ne_none _) (Option.some_ne_none _)
  · intro fault isFault
    rcases fault_eq with ⟨_, allDone⟩ |
      ⟨before, failing, after, other, same, beforeDone, fails, stopped, whole_eq⟩
    · cases isFault.symm.trans allDone
    · obtain rfl := Option.some.inj (stopped.symm.trans isFault)
      exact ⟨before, failing, after, same, beforeDone, fails, whole_eq⟩

/-- A program that binds a name, and one that prints another one.  The second one fails, and
the fault is moved by the eight characters of the first. -/
theorem Session.runLine_join_two :
    let session := Session.fresh (.empty none)
    let sources := ["x = \"a\";", "print y;"]
    (∀ source ∈ sources, ∃ statements, Reads source statements) ∧
      (session.runLines sources).fault = some (.undefinedVariable ⟨6, 7⟩ "y") ∧
      (session.runLine (String.join sources)).fault =
        some (.undefinedVariable ⟨14, 15⟩ "y") := by
  intro session sources
  have reads : ∀ source ∈ sources, ∃ statements, Reads source statements := by
    intro source member
    rcases List.mem_pair.mp member with rfl | rfl
    · exact ⟨_, _, rfl, rfl⟩
    · exact ⟨_, _, rfl, rfl⟩
  have isFault : (session.runLines sources).fault = some (.undefinedVariable ⟨6, 7⟩ "y") := rfl
  refine ⟨reads, isFault, ?_⟩
  obtain ⟨-, -, -, -, joined⟩ := Session.runLine_join session sources reads
  obtain ⟨before, failing, after, same, -, fails, whole_eq⟩ := joined _ isFault
  cases before with
  | nil =>
    obtain ⟨rfl, -⟩ := List.cons.inj same
    cases (show none = some _ from fails)
  | cons first before =>
    obtain ⟨rfl, same⟩ := List.cons.inj same
    cases before with
    | nil => exact whole_eq
    | cons second before =>
      have nothing := (List.cons.inj same).2
      simp at nothing

end PrintLang
