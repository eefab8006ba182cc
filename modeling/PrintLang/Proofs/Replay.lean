import Mathlib.Data.Finset.Card
import PrintLang.Proofs.Listing

/-!
# Replaying the log

The environment of a session is what one gets by carrying out the bindings in its log once more,
from the first one to the last.  This holds however the session came about: by lines, by statements
given as trees, by evaluations and look-ups in between, and whatever of it failed on the way.

What carries the proof is that a statement changes the environment and the bindings in the log
together or not at all.  The line that it writes afterwards may be refused, but this changes neither
of them.

## Main Definitions

* `Event.ShowsBinding` — what a log shows of a binding
* `Session.bindings`, `Environment.replay` — the bindings in a log, and carrying them out
* `Session.carried` — the statements of a run up to the first fault
* `Call`, `Session.call`, `Session.after` — what can be asked of a session, one by one and in a row
* `Environment.Replays` — an environment as a log tells it

## Main Statements

* `Environment.replays_replay` — the environment that the bindings of a log make
* `Session.extends_interpret`, `Session.extends_after` — what is bound is logged
* `Session.environment_replays_log` — hence the environment is the replay of the log
-/

namespace PrintLang

/-! ## Bindings -/

/-- The name and the value of an event, if something was bound. -/
def Event.binding? : Event → Option (String × Value)
  | bound name value => some (name, value)
  | _ => none

theorem Event.binding?_eq_some_iff {event : Event} {name : String} {value : Value} :
    event.binding? = some (name, value) ↔ event = .bound name value := by
  cases event <;> simp [binding?]

/-- What a log shows of an event: that a name was bound, and the text of the value. -/
structure Event.ShowsBinding (event : Event) (name text : String) : Prop where
  level_eq : event.level = .trace
  message_eq : event.message = "bound variable"
  fields_eq : event.fields = [("name", .text name), ("value", .text text)]

/-- Only bindings are shown as such, each with its name and the text of its value. -/
theorem Event.showsBinding_iff {event : Event} {name text : String} :
    event.ShowsBinding name text ↔
      ∃ value : Value, event = .bound name value ∧ value.display = text := by
  constructor
  · rintro ⟨level_eq, -, fields_eq⟩
    cases event with
    | bound other value =>
      simp only [fields, List.cons.injEq, Prod.mk.injEq, Field.text.injEq, true_and,
        and_true] at fields_eq
      obtain ⟨rfl, text_eq⟩ := fields_eq
      exact ⟨value, rfl, text_eq⟩
    | openQuote | loaded | scanned | parsed | parsedLine | finished => cases level_eq
  · rintro ⟨value, rfl, rfl⟩
    exact ⟨rfl, rfl, rfl⟩

/-- The bindings in the log, from the first one to the last. -/
def Session.bindings (session : Session) : List (String × Value) :=
  session.log.toList.filterMap Event.binding?

namespace Environment

/-- The environment after some bindings, one after the other. -/
def replay (environment : Environment) (bindings : List (String × Value)) : Environment :=
  bindings.foldl (fun environment (name, value) => environment.bind name value) environment

variable {environment : Environment} {bindings : List (String × Value)}

theorem replay_append (environment : Environment) (first second : List (String × Value)) :
    environment.replay (first ++ second) = (environment.replay first).replay second :=
  List.foldl_append

/-- The last binding of a name counts. -/
theorem get?_replay (environment : Environment) (bindings : List (String × Value))
    (name : String) :
    (environment.replay bindings).get? name =
      (bindings.reverse.lookup name).or (environment.get? name) := by
  induction bindings using List.reverseRecOn with
  | nil => rfl
  | append_singleton bindings last ih =>
    obtain ⟨other, value⟩ := last
    rw [replay_append, List.reverse_concat, List.lookup_cons]
    show ((environment.replay bindings).bind other value).get? name = _
    rw [get?_bind, ih]
    by_cases same : other = name
    · simp [same]
    · have different : (name == other) = false := beq_false_of_ne (Ne.symm same)
      rw [if_neg same, different]

theorem isSome_lookup_reverse_iff {name : String} :
    (bindings.reverse.lookup name).isSome ↔ name ∈ bindings.map Prod.fst := by
  rw [List.lookup_isSome_iff, List.mem_map]
  constructor
  · rintro ⟨binding, member, same⟩
    exact ⟨binding, List.mem_reverse.mp member, (eq_of_beq same).symm⟩
  · rintro ⟨binding, member, rfl⟩
    exact ⟨binding, List.mem_reverse.mpr member, beq_self_eq_true _⟩

/-- What was bound before is of no importance for a name among the bindings. -/
theorem get?_replay_of_mem {name : String} (member : name ∈ bindings.map Prod.fst) :
    (environment.replay bindings).get? name = bindings.reverse.lookup name := by
  rw [get?_replay, Option.or_of_isSome (isSome_lookup_reverse_iff.mpr member)]

/-- A name that is not among the bindings keeps its value, if it has one. -/
theorem get?_replay_of_notMem {name : String} (notMember : name ∉ bindings.map Prod.fst) :
    (environment.replay bindings).get? name = environment.get? name := by
  have missing := mt isSome_lookup_reverse_iff.mp notMember
  rw [get?_replay, Option.not_isSome_iff_eq_none.mp missing, Option.none_or]

/-- A name is bound after some bindings if it is among them or was bound before. -/
theorem isSome_get?_replay_iff {name : String} :
    ((environment.replay bindings).get? name).isSome ↔
      name ∈ bindings.map Prod.fst ∨ (environment.get? name).isSome := by
  rw [get?_replay, Option.isSome_or, Bool.or_eq_true, isSome_lookup_reverse_iff]

/-- Bindings unbind no name. -/
theorem isSome_get?_replay {name : String} (isBound : (environment.get? name).isSome) :
    ((environment.replay bindings).get? name).isSome :=
  isSome_get?_replay_iff.mpr (Or.inr isBound)

/-- A name is bound from the first of its bindings on. -/
theorem isSome_get?_replay_empty {name : String} :
    ((empty.replay bindings).get? name).isSome ↔ name ∈ bindings.map Prod.fst := by
  simp [isSome_get?_replay_iff]

/-- The value of a name is that of its last binding. -/
theorem get?_replay_empty {name : String} {value : Value} :
    (empty.replay bindings).get? name = some value ↔
      ∃ before after, bindings = before ++ (name, value) :: after ∧
        name ∉ after.map Prod.fst := by
  rw [get?_replay, get?_empty, Option.or_none, List.lookup_eq_some_iff]
  constructor
  · rintro ⟨after, before, reverse_eq, others⟩
    refine ⟨before.reverse, after.reverse, ?_, fun member => ?_⟩
    · rw [← List.reverse_inj, reverse_eq]
      simp
    · obtain ⟨other, otherMember, rfl⟩ := List.mem_map.mp member
      have different := others other (List.mem_reverse.mp otherMember)
      simp at different
  · rintro ⟨before, after, rfl, others⟩
    refine ⟨after.reverse, before.reverse, by simp, fun other member => bne_iff_ne.mpr ?_⟩
    rintro rfl
    exact others (List.mem_map_of_mem (List.mem_reverse.mp member))

/-- Bindings add the names that were not bound before, each of them once. -/
theorem size_replay (environment : Environment) (bindings : List (String × Value)) :
    (environment.replay bindings).size =
      environment.size +
        ((bindings.map Prod.fst).toFinset.filter fun name =>
          environment.get? name = none).card := by
  induction bindings using List.reverseRecOn with
  | nil => rfl
  | append_singleton bindings last ih =>
    have names_eq : ((bindings ++ [last]).map Prod.fst).toFinset =
        insert last.1 (bindings.map Prod.fst).toFinset := by
      rw [List.map_append, List.toFinset_append, Finset.union_comm]
      rfl
    rw [replay_append, names_eq, Finset.filter_insert]
    show ((environment.replay bindings).bind last.1 last.2).size = _
    rw [size_bind, ih]
    by_cases unbound : environment.get? last.1 = none
    · rw [if_pos unbound]
      by_cases again : last.1 ∈ bindings.map Prod.fst
      · rw [if_pos (isSome_get?_replay_iff.mpr (Or.inl again)), Finset.insert_eq_of_mem
          (Finset.mem_filter.mpr ⟨List.mem_toFinset.mpr again, unbound⟩)]
      · have stillUnbound : ¬ ((environment.replay bindings).get? last.1).isSome := by
          rw [get?_replay_of_notMem again, unbound]
          exact nofun
        rw [if_neg stillUnbound, Finset.card_insert_of_notMem
          fun member => again (List.mem_toFinset.mp (Finset.mem_filter.mp member).1)]
        rfl
    · rw [if_neg unbound, if_pos (isSome_get?_replay (Option.isSome_iff_ne_none.mpr unbound))]

theorem size_le_size_replay (environment : Environment) (bindings : List (String × Value)) :
    environment.size ≤ (environment.replay bindings).size := by
  rw [size_replay]
  exact Nat.le_add_right _ _

/-- There are as many names as were bound, each counted once. -/
theorem size_replay_empty (bindings : List (String × Value)) :
    (empty.replay bindings).size = (bindings.map Prod.fst).dedup.length := by
  rw [size_replay, ← List.card_toFinset]
  simp

/-- An environment as a log tells it: a name is bound if some binding of it is in the log, it has
the value of the latest one, and every name is counted once.

The same can be told from what the log shows.  The latest event that shows a binding of a name has
the text of the name's value in its field. -/
structure Replays (environment : Environment) (log : List Event) : Prop where
  isBound_iff : ∀ name, (environment.get? name).isSome ↔ ∃ value, .bound name value ∈ log
  get?_eq_some_iff : ∀ name value, environment.get? name = some value ↔
    ∃ before after, log = before ++ .bound name value :: after ∧ ∀ other, .bound name other ∉ after
  size_eq : environment.size = ((log.filterMap Event.binding?).map Prod.fst).dedup.length
  isEmpty_iff : environment.isEmpty ↔ ∀ name value, .bound name value ∉ log
  isShown_iff : ∀ name, (environment.get? name).isSome ↔
    ∃ event ∈ log, ∃ text, event.ShowsBinding name text
  display_eq_some_iff : ∀ name text, (environment.get? name).map Value.display = some text ↔
    ∃ before event after, log = before ++ event :: after ∧ event.ShowsBinding name text ∧
      ∀ later ∈ after, ∀ other, ¬ later.ShowsBinding name other

/-- The names of the bindings in a log. -/
theorem mem_names_iff {log : List Event} {name : String} :
    name ∈ (log.filterMap Event.binding?).map Prod.fst ↔ ∃ value, .bound name value ∈ log := by
  rw [List.mem_map]
  constructor
  · rintro ⟨⟨_, value⟩, member, rfl⟩
    obtain ⟨event, isIn, binding_eq⟩ := List.mem_filterMap.mp member
    exact ⟨value, Event.binding?_eq_some_iff.mp binding_eq ▸ isIn⟩
  · rintro ⟨value, isIn⟩
    exact ⟨(name, value), List.mem_filterMap.mpr ⟨_, isIn, rfl⟩, rfl⟩

/-- The value of a name is that of its latest binding in the log. -/
theorem get?_replay_log {log : List Event} {name : String} {value : Value} :
    (empty.replay (log.filterMap Event.binding?)).get? name = some value ↔
      ∃ before after, log = before ++ .bound name value :: after ∧
        ∀ other, .bound name other ∉ after := by
  rw [get?_replay_empty]
  constructor
  · rintro ⟨before, after, split, others⟩
    obtain ⟨front, back, rfl, -, back_eq⟩ := List.filterMap_eq_append_iff.mp split
    obtain ⟨between, event, rest, rfl, -, binding_eq, rfl⟩ :=
      List.filterMap_eq_cons_iff.mp back_eq
    obtain rfl := Event.binding?_eq_some_iff.mp binding_eq
    refine ⟨front ++ between, rest, (List.append_assoc ..).symm, fun other member => ?_⟩
    exact others (mem_names_iff.mpr ⟨other, member⟩)
  · rintro ⟨before, after, rfl, others⟩
    refine ⟨_, _, List.filterMap_append, fun member => ?_⟩
    obtain ⟨other, isIn⟩ := mem_names_iff.mp member
    exact others other isIn

/-- The log shows a binding of a name if there is one in it. -/
theorem exists_showsBinding_iff {log : List Event} {name : String} :
    (∃ event ∈ log, ∃ text, event.ShowsBinding name text) ↔ ∃ value, .bound name value ∈ log := by
  constructor
  · rintro ⟨event, member, text, shows⟩
    obtain ⟨value, rfl, -⟩ := Event.showsBinding_iff.mp shows
    exact ⟨value, member⟩
  · rintro ⟨value, member⟩
    exact ⟨_, member, value.display, Event.showsBinding_iff.mpr ⟨value, rfl, rfl⟩⟩

/-- The latest event that shows a binding of a name is its latest binding. -/
theorem exists_latest_iff {log : List Event} {name text : String} :
    (∃ before event after, log = before ++ event :: after ∧ event.ShowsBinding name text ∧
        ∀ later ∈ after, ∀ other, ¬ later.ShowsBinding name other) ↔
      ∃ value : Value, (∃ before after, log = before ++ .bound name value :: after ∧
        ∀ other, .bound name other ∉ after) ∧ value.display = text := by
  constructor
  · rintro ⟨before, event, after, log_eq, shows, latest⟩
    obtain ⟨value, rfl, display_eq⟩ := Event.showsBinding_iff.mp shows
    refine ⟨value, ⟨before, after, log_eq, fun other member => ?_⟩, display_eq⟩
    exact latest _ member _ (Event.showsBinding_iff.mpr ⟨other, rfl, rfl⟩)
  · rintro ⟨value, ⟨before, after, log_eq, others⟩, display_eq⟩
    refine ⟨before, _, after, log_eq, Event.showsBinding_iff.mpr ⟨value, rfl, display_eq⟩, ?_⟩
    intro later member other shows
    obtain ⟨again, rfl, -⟩ := Event.showsBinding_iff.mp shows
    exact others again member

theorem replays_replay (log : List Event) :
    (empty.replay (log.filterMap Event.binding?)).Replays log := by
  have isBound_iff (name : String) :
      ((empty.replay (log.filterMap Event.binding?)).get? name).isSome ↔
        ∃ value, .bound name value ∈ log := by
    rw [isSome_get?_replay_empty, mem_names_iff]
  constructor
  case isBound_iff => exact isBound_iff
  case get?_eq_some_iff => exact fun name value => get?_replay_log
  case size_eq => exact size_replay_empty _
  case isEmpty_iff =>
    rw [isEmpty, Std.TreeMap.isEmpty_eq_size_eq_zero, beq_iff_eq]
    show (empty.replay _).size = 0 ↔ _
    rw [size_replay_empty, List.length_eq_zero_iff, List.dedup_eq_nil,
      List.eq_nil_iff_forall_not_mem]
    simp only [mem_names_iff, not_exists]
  case isShown_iff =>
    intro name
    rw [isBound_iff, exists_showsBinding_iff]
  case display_eq_some_iff =>
    intro name text
    rw [exists_latest_iff, Option.map_eq_some_iff]
    simp only [get?_replay_log]

end Environment

/-! ## Running statements -/

/-- What the statement binds: an assignment binds its name if its expression has a value. -/
def Tree.binding? (environment : Environment) : Tree → Option (String × Value)
  | assign name value _ =>
    match value.evaluate environment with
    | .ok value => some (name, value)
    | .error _ => none
  | _ => none

namespace Session

/-- The statements that a run carries out, each with the environment in which it does: all up to the
first fault, and the one where the fault arises. -/
def carried (session : Session) : List Tree → List (Environment × Tree)
  | [] => []
  | statement :: rest =>
    (session.environment, statement) ::
      match session.execute statement with
      | ⟨next, none⟩ => next.carried rest
      | ⟨_, some _⟩ => []

/-- The bindings that statements make, each in its environment. -/
def bound (carried : List (Environment × Tree)) : List (String × Value) :=
  carried.filterMap fun (environment, statement) => statement.binding? environment

theorem bound_cons (environment : Environment) (statement : Tree)
    (rest : List (Environment × Tree)) :
    bound ((environment, statement) :: rest) =
      (statement.binding? environment).toList ++ bound rest := by
  rw [bound, List.filterMap_cons]
  dsimp only
  cases statement.binding? environment <;> rfl

/-- In going on from one session to another, some bindings were made, and just these were logged. -/
structure Extends (session after : Session) (bindings : List (String × Value)) : Prop where
  environment_eq : after.environment = session.environment.replay bindings
  bindings_eq : after.bindings = session.bindings ++ bindings

namespace Extends

variable {session next after : Session} {first second : List (String × Value)}

theorem refl (session : Session) : session.Extends session [] :=
  ⟨rfl, (List.append_nil _).symm⟩

theorem trans (before : session.Extends next first) (later : next.Extends after second) :
    session.Extends after (first ++ second) := by
  constructor
  · rw [later.environment_eq, before.environment_eq, Environment.replay_append]
  · rw [later.bindings_eq, before.bindings_eq, List.append_assoc]

end Extends

theorem bindings_record (session : Session) (event : Event) :
    (session.record event).bindings = session.bindings ++ event.binding?.toList := by
  rw [bindings, bindings, record, Array.toList_push, List.filterMap_append]
  cases event <;> rfl

theorem extends_bind (session : Session) (name : String) (value : Value) :
    session.Extends (session.bind name value) [(name, value)] :=
  ⟨rfl, session.bindings_record (.bound name value)⟩

/-- Whether a line is refused or not, writing it binds nothing. -/
theorem extends_emit (session : Session) (span : Span) (line : String) :
    session.Extends (session.emit span line).session [] := by
  unfold emit
  rcases session.sink.write line with ⟨sink, none | refusal⟩
  · exact ⟨rfl, (List.append_nil _).symm⟩
  · exact ⟨rfl, (List.append_nil _).symm⟩

/-- A statement binds what it should, even if its line is refused. -/
theorem extends_execute (session : Session) (statement : Tree) :
    session.Extends (session.execute statement).session
      (statement.binding? session.environment).toList := by
  cases statement with
  | assign name value span =>
    simp only [execute, Tree.binding?]
    cases value.evaluate session.environment with
    | error fault => exact .refl session
    | ok value => exact (session.extends_bind name value).trans (extends_emit _ span _)
  | print value span =>
    simp only [execute, Tree.binding?]
    cases value.evaluate session.environment with
    | error fault => exact .refl session
    | ok value => exact session.extends_emit span _
  | number | text | reference | operation =>
    simp only [execute, Tree.binding?]
    split <;> exact .refl session

/-- A run binds what the statements bind that it carries out. -/
theorem extends_interpret (session : Session) (statements : List Tree) :
    session.Extends (session.interpret statements).session
      (bound (session.carried statements)) := by
  induction statements generalizing session with
  | nil => exact .refl session
  | cons statement rest ih =>
    have here := session.extends_execute statement
    rw [interpret_cons, carried, bound_cons]
    rcases execute_eq : session.execute statement with ⟨next, none | fault⟩
    · rw [execute_eq] at here
      exact here.trans (ih next)
    · rw [execute_eq] at here
      exact here.trans (.refl next)

end Session

/-! ## Calls -/

/-- What can be asked of a session. -/
inductive Call
  /-- To run a line. -/
  | line (source : String)
  /-- To run statements. -/
  | run (statements : List Tree)
  /-- To evaluate an expression. -/
  | evaluate (tree : Tree)
  /-- To look up a name. -/
  | lookUp (name : String)

/-- What a call is answered with. -/
inductive Answer
  /-- The fault, if something could not be run to its end. -/
  | ran (fault : Option Fault)
  /-- The value of an expression, or the fault for which it has none. -/
  | evaluated (result : Except Fault Value)
  /-- The value of a name, if it is bound. -/
  | found (value : Option Value)

/-- The statements that a call runs. -/
def Call.program : Call → List Tree
  | line source =>
    match Script.read source with
    | .ok statements => statements
    | .error _ => []
  | run statements => statements
  | evaluate _ | lookUp _ => []

namespace Session

/-- The session after a call, and the answer. -/
def call (session : Session) : Call → Session × Answer
  | .line source =>
    let outcome := session.runLine source
    (outcome.session, .ran outcome.fault)
  | .run statements =>
    let outcome := session.interpret statements
    (outcome.session, .ran outcome.fault)
  | .evaluate tree => (session, .evaluated (tree.evaluate session.environment))
  | .lookUp name => (session, .found (session.environment.get? name))

/-- The session after some calls, whatever their answers are. -/
def after (session : Session) (calls : List Call) : Session :=
  calls.foldl (fun session call => (session.call call).1) session

/-- The statements that calls carry out, each with the environment in which they do. -/
def carriedBy (session : Session) : List Call → List (Environment × Tree)
  | [] => []
  | call :: rest => session.carried call.program ++ (session.call call).1.carriedBy rest

theorem bindings_traced (session : Session) : session.traced.bindings = session.bindings := by
  rw [bindings, bindings, traced, trace, Array.toList_filter, List.filterMap_filter]
  congr 1
  funext event
  cases event <;> rfl

/-- But for the log, a call runs its statements. -/
theorem traced_call (session : Session) (call : Call) :
    (session.call call).1.traced = (session.traced.interpret call.program).session := by
  cases call with
  | evaluate | lookUp => rfl
  | run statements => exact congrArg Outcome.session (session.interpret_traced statements)
  | line source =>
    have traced := congrArg Outcome.session (Script.traces_runLine source session)
    refine Eq.trans traced ?_
    rw [Script.runBody, Call.program]
    cases Script.read source <;> rfl

/-- The other events in the log have no influence on what is carried out. -/
theorem carried_traced (session : Session) (statements : List Tree) :
    session.traced.carried statements = session.carried statements := by
  induction statements generalizing session with
  | nil => rfl
  | cons statement rest ih =>
    have executed : (session.execute statement).traced = session.traced.execute statement :=
      Keeps.execute (fun _ _ => rfl) statement session
    rw [carried, carried, ← executed]
    rcases session.execute statement with ⟨next, none | fault⟩
    · exact congrArg (_ :: ·) (ih next)
    · rfl

theorem extends_call (session : Session) (call : Call) :
    session.Extends (session.call call).1 (bound (session.carried call.program)) := by
  have extended := session.traced.extends_interpret call.program
  rw [← traced_call, carried_traced] at extended
  obtain ⟨environment_eq, bindings_eq⟩ := extended
  rw [bindings_traced, bindings_traced] at bindings_eq
  exact ⟨environment_eq, bindings_eq⟩

/-- Calls bind what the statements bind that they carry out. -/
theorem extends_after (session : Session) (calls : List Call) :
    session.Extends (session.after calls) (bound (session.carriedBy calls)) := by
  induction calls generalizing session with
  | nil => exact .refl session
  | cons call rest ih =>
    rw [carriedBy, bound, List.filterMap_append]
    exact (session.extends_call call).trans (ih _)

/-- **The environment of a session is the replay of its log.**

A session starts with any sink and nothing else, and is called any number of times, whatever fails.
A name is bound if and only if some binding of it has been logged; its value is that of the latest
one, whose event shows the text of this value, and the size of the environment is the number of
names that have been bound.  The bindings in the log are those of the assignments that were carried
out and whose expressions had values, in this order, even if their lines were refused.  Further
calls unbind no name, and evaluations and look-ups change nothing at all. -/
theorem environment_replays_log (sink : Sink) (calls : List Call) :
    let session := (fresh sink).after calls
    session.environment.Replays session.log.toList ∧
      session.bindings = bound ((fresh sink).carriedBy calls) ∧
      (∀ more,
        (∀ name, (session.environment.get? name).isSome →
          ((session.after more).environment.get? name).isSome) ∧
        session.environment.size ≤ (session.after more).environment.size) ∧
      (∀ tree, session.call (.evaluate tree) =
        (session, .evaluated (tree.evaluate session.environment))) ∧
      ∀ name, session.call (.lookUp name) =
        (session, .found (session.environment.get? name)) := by
  intro session
  obtain ⟨environment_eq, bindings_eq⟩ := (fresh sink).extends_after calls
  have nothing : (fresh sink).bindings = [] := rfl
  rw [nothing, List.nil_append] at bindings_eq
  refine ⟨?_, bindings_eq, fun more => ?_, fun _ => rfl, fun _ => rfl⟩
  · rw [environment_eq, ← bindings_eq]
    exact Environment.replays_replay _
  · rw [(session.extends_after more).environment_eq]
    exact ⟨fun name => Environment.isSome_get?_replay, Environment.size_le_size_replay _ _⟩

/-- The second line binds the name once more before it is refused, and nothing comes of the
statement behind it.  The text of the value can be read in the log. -/
theorem environment_replays_log_refused :
    let calls := [Call.line "x = \"a\";", .lookUp "x", .line "x = \"b\"; y = x;"]
    let session := (fresh (.empty (some ⟨6, .closed⟩))).after calls
    session.bindings = [("x", .text "a"), ("x", .text "b")] ∧
      session.environment.get? "x" = some (.text "b") ∧ session.environment.size = 1 ∧
      ∃ before event after, session.log.toList = before ++ event :: after ∧
        event.message = "bound variable" ∧
        event.fields = [("name", .text "x"), ("value", .text "b")] := by
  intro calls session
  obtain ⟨replays, -⟩ := environment_replays_log (.empty (some ⟨6, .closed⟩)) calls
  have log_eq : session.log.toList =
      [.parsedLine 1, .bound "x" (.text "a"), .parsedLine 2, .bound "x" (.text "b")] := by
    decide +kernel
  have size_eq := replays.size_eq
  rw [log_eq] at size_eq
  have get?_eq : session.environment.get? "x" = some (.text "b") :=
    (replays.get?_eq_some_iff _ _).mpr
      ⟨[.parsedLine 1, .bound "x" (.text "a"), .parsedLine 2], [], log_eq, nofun⟩
  obtain ⟨before, event, after, split, shows, -⟩ :=
    (replays.display_eq_some_iff "x" "b").mp (by rw [get?_eq]; rfl)
  refine ⟨?_, get?_eq, size_eq, before, event, after, split, shows.message_eq, shows.fields_eq⟩
  rw [bindings, log_eq]
  rfl

end Session

end PrintLang
