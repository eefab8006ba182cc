import Mathlib.Data.List.Basic
import PrintLang.Proofs.Culprit

/-!
# Where a run stops

A run of statements that fails does so at exactly one of them.  The statements before it have
had all of their effects, and those after it none, so that all there is to say about a failed
run is what the one statement did.

There are two ways to fail, and they leave different traces.  If the expression of the statement
has no value, nothing at all is done.  If its line is refused, the name is bound already and a
beginning of the line has been written; a sink refuses at most once on behalf of a statement.

A text that is no program does not run, and leaves the session as it was.

## Main Definitions

* `Session.StopsAt` — a run of statements stops at one of them

## Main Statements

* `Session.exists_stopsAt`, `Session.StopsAt.index_eq` — a run that fails stops at one statement
* `Session.StopsAt.interpret_eq` — it fails as this statement alone does
* `Session.effects_before_failure` — what a failed step leaves behind
-/

namespace PrintLang

/-! ## Refused lines -/

/-- Of a line that is refused, a beginning is written, but not all of it. -/
theorem Sink.exists_taken_of_write {sink next : Sink} {line : String} {refusal : Refusal}
    (write_eq : sink.write line = (next, some refusal)) :
    ∃ limit taken rest, sink.limit = some limit ∧ limit.refusal = refusal ∧
      taken ++ rest = lineBytes line ∧ 0 < rest.size ∧
      next = { sink with written := sink.written ++ taken, refused := sink.refused + 1 } := by
  unfold write at write_eq
  cases limit_eq : sink.limit with
  | none =>
    rw [limit_eq] at write_eq
    cases write_eq
  | some limit =>
    rw [limit_eq] at write_eq
    dsimp only at write_eq
    split at write_eq
    · cases write_eq
    · next large =>
      obtain ⟨rfl, refusal_eq⟩ := Prod.mk.inj write_eq
      have split := ByteArray.extract_eq_extract_append_extract (a := lineBytes line)
        (limit.size - sink.written.size) (Nat.zero_le _) (Nat.le_of_not_le large)
      rw [ByteArray.extract_zero_size] at split
      refine ⟨limit, _, _, rfl, Option.some.inj refusal_eq, split.symm, ?_, rfl⟩
      rw [ByteArray.size_extract, Nat.min_self]
      omega

/-! ## The statement that fails -/

namespace Session

/-- A run of statements stops at the one with the given index: those before it run to their end
and leave the session `before`, and it does not run to its end from there. -/
structure StopsAt (session : Session) (statements : List Tree) (index : Nat) (before : Session)
    (statement : Tree) : Prop where
  done : session.interpret (statements.take index) = ⟨before, none⟩
  here : statements[index]? = some statement
  stopped : (before.interpret [statement]).fault ≠ none

theorem interpret_singleton (session : Session) (statement : Tree) :
    session.interpret [statement] = session.execute statement := by
  rw [interpret_cons]
  rcases session.execute statement with ⟨next, fault⟩
  cases fault <;> rfl

namespace StopsAt

variable {session before : Session} {statements : List Tree} {index : Nat} {statement : Tree}

/-- The run fails as the one statement does. -/
theorem interpret_eq (stops : session.StopsAt statements index before statement) :
    session.interpret statements = before.interpret [statement] := by
  obtain ⟨inside, here⟩ := List.getElem?_eq_some_iff.mp stops.here
  have split : statements =
      statements.take index ++ ([statement] ++ statements.drop (index + 1)) := by
    rw [List.singleton_append, ← here, List.getElem_cons_drop, List.take_append_drop]
  rw [split, interpret_append, stops.done, Outcome.andThen_done, interpret_append]
  rcases run_eq : before.interpret [statement] with ⟨after, fault⟩
  have stopped := stops.stopped
  rw [run_eq] at stopped
  cases fault with
  | none => exact absurd rfl stopped
  | some fault => rfl

/-- A run that stops later does not stop here. -/
theorem not_lt {other : Nat} {later : Session} {otherStatement : Tree}
    (stops : session.StopsAt statements index before statement)
    (others : session.StopsAt statements other later otherStatement) : ¬ index < other := by
  intro lt
  -- The statements before the later one contain the earlier one, and do not run to their end.
  have earlier : session.StopsAt (statements.take other) index before statement := by
    refine ⟨?_, ?_, stops.stopped⟩
    · rw [List.take_take, Nat.min_eq_left (Nat.le_of_lt lt)]
      exact stops.done
    · rw [List.getElem?_take_of_lt lt]
      exact stops.here
  have run_eq := earlier.interpret_eq
  rw [others.done] at run_eq
  exact stops.stopped (congrArg Outcome.fault run_eq).symm

/-- A run stops at one statement only. -/
theorem index_eq {other : Nat} {later : Session} {otherStatement : Tree}
    (stops : session.StopsAt statements index before statement)
    (others : session.StopsAt statements other later otherStatement) : index = other :=
  Nat.le_antisymm (Nat.le_of_not_lt (others.not_lt stops)) (Nat.le_of_not_lt (stops.not_lt others))

/-- The same run with one more statement in front. -/
theorem cons {next : Session} {first : Tree} (runs : session.execute first = ⟨next, none⟩)
    (stops : next.StopsAt statements index before statement) :
    session.StopsAt (first :: statements) (index + 1) before statement := by
  refine ⟨?_, stops.here, stops.stopped⟩
  rw [List.take_succ_cons, interpret_cons, runs, Outcome.andThen_done]
  exact stops.done

end StopsAt

/-- A run that fails stops at one of its statements. -/
theorem exists_stopsAt {session after : Session} {statements : List Tree} {fault : Fault}
    (run_eq : session.interpret statements = ⟨after, some fault⟩) :
    ∃ index before statement, session.StopsAt statements index before statement ∧
      before.execute statement = ⟨after, some fault⟩ := by
  induction statements generalizing session with
  | nil => cases run_eq
  | cons first rest ih =>
    rw [interpret_cons] at run_eq
    rcases execute : session.execute first with ⟨next, firstFault⟩
    rw [execute] at run_eq
    cases firstFault with
    | none =>
      obtain ⟨index, before, statement, stops, stops_eq⟩ := ih run_eq
      exact ⟨index + 1, before, statement, stops.cons execute, stops_eq⟩
    | some firstFault =>
      rw [Outcome.andThen_stopped] at run_eq
      refine ⟨0, session, first, ⟨rfl, rfl, ?_⟩, execute.trans run_eq⟩
      rw [interpret_singleton, execute]
      exact Option.some_ne_none _

/-! ## What is left behind -/

/-- The parts of a session that can be seen from outside: the environment, what has been written
and refused, and the bindings in the log. -/
structure SameEffects (session other : Session) : Prop where
  environment_eq : session.environment = other.environment
  sink_eq : session.sink = other.sink
  trace_eq : session.trace = other.trace

theorem sameEffects_noteOpenQuote (session : Session) (scan : Scan) :
    (session.noteOpenQuote scan).SameEffects session := by
  unfold noteOpenQuote
  split
  · exact ⟨rfl, rfl, by simp [trace, record, Event.level]⟩
  · exact ⟨rfl, rfl, rfl⟩

/-- A text that is no program has no effects. -/
theorem sameEffects_of_runLine {session after : Session} {source : String} {fault : Fault}
    (run_eq : session.runLine source = ⟨after, some fault⟩) (early : fault.cause.stage ≠ .run) :
    after.SameEffects session := by
  unfold runLine at run_eq
  split at run_eq
  · cases run_eq
    exact ⟨rfl, rfl, rfl⟩
  · dsimp only at run_eq
    split at run_eq
    · cases run_eq
      exact sameEffects_noteOpenQuote _ _
    · exact absurd (stage_of_interpret run_eq) early

/-- What is left behind by a statement whose line is refused: its name is bound, if it binds
one, and of its line a beginning is written. -/
def LeavesRefused (before : Session) (statement : Tree) (after : Session) : Prop :=
  ∃ value line taken rest, statement.subject.evaluate before.environment = .ok value ∧
    statement.line? value = some line ∧ taken ++ rest = Sink.lineBytes line ∧ 0 < rest.size ∧
    after =
      { before.settle statement value with
        sink :=
          { before.sink with
            written := before.sink.written ++ taken
            refused := before.sink.refused + 1 } }

/-- A statement without a value leaves the session as it was. -/
theorem Executes.eq_of_cause_ne {session after : Session} {statement : Tree} {fault : Fault}
    (executes : session.Executes statement ⟨after, some fault⟩)
    (notOutput : ∀ reason, fault.cause ≠ .outputRefused reason) : after = session := by
  cases executes with
  | fails => rfl
  | refused => exact absurd rfl (notOutput _)

/-- A statement whose line is refused has a value. -/
theorem Executes.leavesRefused {session after : Session} {statement : Tree} {fault : Fault}
    {reason : String} (executes : session.Executes statement ⟨after, some fault⟩)
    (isOutput : fault.cause = .outputRefused reason) :
    statement.Writes ∧ fault.span = statement.span ∧ session.LeavesRefused statement after := by
  cases executes with
  | fails _ _ fails => exact absurd isOutput (fails.cause_ne reason)
  | refused evaluate_eq line_eq write_eq =>
    obtain ⟨limit, taken, rest, -, -, split, large, rfl⟩ := Sink.exists_taken_of_write write_eq
    exact ⟨Tree.writes_of_line? line_eq, rfl, _, _, taken, rest, evaluate_eq, line_eq, split,
      large, rfl⟩

/-- **A failed step leaves exactly the effects of what came before the failure.**

A text that is no program has none.  A run of statements that fails stops at exactly one of
them, and those before it have run to their end.  If its expression has no value, the run ends
in the session that they left; if its line is refused, its name is bound in addition, if it
binds one, a beginning of the line is written and the refusal is counted. -/
theorem effects_before_failure (session : Session) :
    (∀ source after fault, session.runLine source = ⟨after, some fault⟩ →
      fault.cause.stage = .lexical ∨ fault.cause.stage = .parse → after.SameEffects session) ∧
    (∀ statements after fault, session.interpret statements = ⟨after, some fault⟩ →
      (∀ reason, fault.cause ≠ .outputRefused reason) →
        ∃! index, ∃ statement, session.StopsAt statements index after statement ∧
          after.interpret [statement] = ⟨after, some fault⟩) ∧
    ∀ statements after fault reason, session.interpret statements = ⟨after, some fault⟩ →
      fault.cause = .outputRefused reason →
        ∃! index, ∃ before statement, session.StopsAt statements index before statement ∧
          before.interpret [statement] = ⟨after, some fault⟩ ∧ statement.Writes ∧
          fault.span = statement.span ∧ before.LeavesRefused statement after := by
  refine ⟨?_, ?_, ?_⟩
  · intro source after fault run_eq early
    refine sameEffects_of_runLine run_eq fun isRun => ?_
    rcases early with early | early
    · cases isRun.symm.trans early
    · cases isRun.symm.trans early
  · intro statements after fault run_eq notOutput
    obtain ⟨index, before, statement, stops, execute⟩ := exists_stopsAt run_eq
    obtain rfl := (executes_of_execute execute).eq_of_cause_ne notOutput
    refine ⟨index, ⟨statement, stops, interpret_singleton after statement ▸ execute⟩, ?_⟩
    rintro other ⟨_, others, -⟩
    exact others.index_eq stops
  · intro statements after fault reason run_eq isOutput
    obtain ⟨index, before, statement, stops, execute⟩ := exists_stopsAt run_eq
    have refused := (executes_of_execute execute).leavesRefused isOutput
    refine ⟨index, ⟨before, statement, stops, ?_, refused⟩, ?_⟩
    · rw [interpret_singleton, execute]
    · rintro other ⟨_, _, others, -⟩
      exact others.index_eq stops

/-- A sink that takes eight bytes: a text that is no program, a name that is not bound after
the first line, and a second line of which one byte is taken. -/
theorem effects_before_failure_eight_bytes :
    let session := fresh (.empty (some ⟨8, .closed⟩))
    let first := Tree.assign "x" (.text "ab" ⟨4, 8⟩) ⟨0, 9⟩
    let unbound := Tree.print (.reference "y" ⟨16, 17⟩) ⟨10, 18⟩
    let long := Tree.assign "z" (.text "cd" ⟨14, 18⟩) ⟨10, 19⟩
    let afterFirst := (session.interpret [first]).session
    let afterLong := (session.interpret [first, long]).session
    (session.runLine "x = ;").session.SameEffects session ∧
      (∃! index, ∃ statement, session.StopsAt [first, unbound] index afterFirst statement ∧
        afterFirst.interpret [statement] =
          ⟨afterFirst, some (.undefinedVariable ⟨16, 17⟩ "y")⟩) ∧
      ∃! index, ∃ before statement, session.StopsAt [first, long] index before statement ∧
        before.interpret [statement] =
          ⟨afterLong, some (.outputRefused ⟨10, 19⟩ "sink closed")⟩ ∧ statement.Writes ∧
        ⟨10, 19⟩ = statement.span ∧ before.LeavesRefused statement afterLong := by
  intro session first unbound long afterFirst afterLong
  obtain ⟨early, unvalued, refused⟩ := effects_before_failure session
  refine ⟨early "x = ;" _ _ rfl (Or.inr rfl), ?_, ?_⟩
  · exact unvalued [first, unbound] _ _ rfl fun _ => Cause.noConfusion
  · exact refused [first, long] _ _ _ rfl rfl

end Session

end PrintLang
