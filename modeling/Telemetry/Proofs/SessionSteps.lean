import Telemetry.Proofs.EngineChecks
import Telemetry.Proofs.StoreIndex
import Telemetry.Simulator

/-!
# What a step and an override do to a session

An attempt yields an outcome and the session it leaves, refused or not. This
module says for each attempt of the simulator what both are, first for its parts
and then for a step and an override as a whole.

The parts that come after the readings have moved can still refuse: deriving and
watching ask the new snapshot for every channel they read. They ask for the
names that the check before the move asked the index for, and moving readings
changes neither the index nor the names. Where index and channels agree, they
therefore never refuse, and what is left of a step is its check or all of its
work.
-/
namespace Telemetry

/-- Carry an attempt out: its outcome and the state that it leaves. -/
def Attempt.on {s α : Type} (attempt : Attempt s α) (state : s) : Except Fault α × s :=
  attempt.run state

namespace Attempt

variable {s α β : Type} (state : s)

/-- Returning a value leaves the state as it is. This and the next lines run an
attempt one request at a time, and are all that is used of how attempts are
made. -/
@[simp] theorem on_pure (value : α) : (pure value : Attempt s α).on state = (.ok value, state) :=
  rfl

/-- A refusal leaves the state as it is at that moment. What was changed before
stays changed, so that an attempt which must not do this has to check first. -/
@[simp] theorem on_throw (fault : Fault) :
    (throw fault : Attempt s α).on state = (.error fault, state) := rfl

/-- Reading the state succeeds and changes nothing. -/
@[simp] theorem on_get : (get : Attempt s s).on state = (.ok state, state) := rfl

/-- Writing the state succeeds, and only what was written is left. -/
@[simp] theorem on_set (after : s) : (set after : Attempt s PUnit).on state = (.ok ⟨⟩, after) := rfl

/-- What follows a success starts where the success ended; a refusal ends all.
The state is outside the refusal, so both outcomes come with one. -/
@[simp] theorem on_bind (attempt : Attempt s α) (next : α → Attempt s β) :
    (attempt >>= next).on state =
      match attempt.on state with
      | (.ok value, after) => (next value).on after
      | (.error fault, after) => (.error fault, after) := by
  change (match attempt.on state with
    | (outcome, after) => (ExceptT.bindCont next outcome : StateM s _) after) = _
  rcases attempt.on state with ⟨outcome, after⟩
  cases outcome <;> rfl

/-- Taking a part of the outcome touches neither a refusal nor the state. -/
@[simp] theorem on_map (attempt : Attempt s α) (change : α → β) :
    (change <$> attempt).on state =
      match attempt.on state with
      | (.ok value, after) => (.ok (change value), after)
      | (.error fault, after) => (.error fault, after) := by
  rw [map_eq_pure_bind, on_bind]
  rfl

end Attempt

/-- Dispatches made one after another: how many listener calls failed, and the
world outside after them. -/
def dispatch {σ : Type} (observers : Observer.Registry EventKind σ (Observer.Listener Event σ)) :
    List Event → σ → Nat × σ
  | [], outside => (0, outside)
  | event :: rest, outside =>
    let told : Observer.Report × σ := observers.notify event.kind event outside
    let later := dispatch observers rest told.2
    (told.1.failed + later.1, later.2)

namespace Session

variable {σ ρ : Type} (session : Session σ ρ)

/-- The check before a step only reads: its outcome is that of the simulator's
check, and the session is the same before and after it. -/
theorem checkInputs_on :
    checkInputs.on session = (session.simulator.checkInputs, session) := by
  cases checked : session.simulator.checkInputs <;> simp [checkInputs, checked]

/-- The move of the readings is never refused. It takes its draws from the
source, and nothing but the store and the source is touched. -/
theorem tick_on [Source ρ] :
    tick.on session =
      let (store, source) := session.simulator.store.tick session.source
      (.ok store.snapshot,
        { session with
          simulator := { session.simulator with store := store }, source := source }) := by
  simp [tick]

/-- Writing a reading is what the store does with it. If the store refuses,
nothing has been written yet, and the session is the one before. -/
theorem overwrite_on (name : String) (value : Float) :
    (overwrite name value).on session =
      match session.simulator.store.setValue name value with
      | .ok (_, store) =>
        (.ok store.snapshot,
          { session with simulator := { session.simulator with store := store } })
      | .error fault => (.error fault, session) := by
  cases written : session.simulator.store.setValue name value <;> simp [overwrite, written]

/-- Deriving is what the engine does with the snapshot. A refusal leaves the
session as it was, since the engine is put back only with the results. -/
theorem recompute_on (snapshot : Snapshot) :
    (recompute snapshot).on session =
      match session.simulator.engine.recompute snapshot with
      | .ok (metrics, engine) =>
        (.ok metrics, { session with simulator := { session.simulator with engine := engine } })
      | .error fault => (.error fault, session) := by
  cases derived : session.simulator.engine.recompute snapshot <;> simp [recompute, derived]

/-- Comparing the rules is what the engine does with the snapshot. As in
deriving, the engine is put back only if no reading was missing. -/
theorem watch_on (snapshot : Snapshot) :
    (watch snapshot).on session =
      match session.simulator.engine.watch snapshot with
      | .ok (transitions, engine) =>
        (.ok transitions, { session with simulator := { session.simulator with engine := engine } })
      | .error fault => (.error fault, session) := by
  cases watched : session.simulator.engine.watch snapshot <;> simp [watch, watched]

/-- A dispatch is never refused, whatever the listeners do: a failure of theirs
is counted in the report. It acts on the world outside and on nothing else of
the session. -/
theorem notify_on (kind : EventKind) (event : Event) :
    (notify kind event).on session =
      let told : Observer.Report × σ :=
        session.simulator.observers.notify kind event session.outside
      (.ok told.1, { session with outside := told.2 }) := rfl

/-- Transitions are announced one after another, each in the world that the one
before has left, so together they are one dispatch of their events. The
observers do not change meanwhile. -/
theorem announce_on (transitions : List Transition) :
    (announce transitions).on session =
      let told := dispatch session.simulator.observers (transitions.map .threshold) session.outside
      (.ok told.1, { session with outside := told.2 }) := by
  induction transitions generalizing session with
  | nil => rfl
  | cons transition rest inductionHypothesis =>
    simp [announce, notify_on, inductionHypothesis, dispatch, Event.kind]

/-- Counting failed calls adds to one counter and is never refused. -/
theorem recordFailures_on (failed : Nat) :
    (recordFailures failed).on session =
      (.ok (), { session with simulator := { session.simulator with
        listenerFailures := session.simulator.listenerFailures + failed } }) := rfl

end Session

namespace Simulator

variable {σ : Type} {simulator : Simulator σ}

/-- The check says nothing else than that no search among the current readings
would find anything. It asks the index while deriving and watching ask a
snapshot; the two know the same names, also after the readings have moved. -/
theorem checkInputs_eq_ok_iff (indexed : simulator.store.Indexed) {after : Store}
    (names : after.names = simulator.store.names) (index : after.index = simulator.store.index) :
    simulator.checkInputs = .ok () ↔
      simulator.engine.missingDependency? after.snapshot.contains = none ∧
        simulator.engine.missingRuleChannel? after.snapshot.contains = none := by
  have known : after.snapshot.contains = simulator.store.contains := by
    rw [Store.contains_snapshot (Store.indexed_of_same indexed names index)]
    funext name
    simp only [Store.contains, index]
  rw [known, checkInputs, Engine.checkInputs_eq_ok_iff]

/-- Deriving after a passed check, from readings of the same channels, derives
everything. What it could miss is what the check would have missed. -/
theorem recompute_of_checked (indexed : simulator.store.Indexed)
    (checked : simulator.checkInputs = .ok ()) {after : Store}
    (names : after.names = simulator.store.names) (index : after.index = simulator.store.index) :
    simulator.engine.recompute after.snapshot =
      .ok (⟨after.snapshot.tick,
          simulator.engine.derivations.map fun derivation => derivation.evaluate after.snapshot⟩,
        ⟨simulator.engine.derivations.map (.remember after.snapshot),
          simulator.engine.watches⟩) := by
  rw [Engine.recompute_eq_ok_iff]
  exact ⟨((checkInputs_eq_ok_iff indexed names index).1 checked).1, rfl, rfl⟩

/-- Watching after a passed check compares every rule, whatever was derived
meanwhile: it reads the rules and the snapshot, and deriving changes neither. -/
theorem watch_of_checked (indexed : simulator.store.Indexed)
    (checked : simulator.checkInputs = .ok ()) {after : Store}
    (names : after.names = simulator.store.names) (index : after.index = simulator.store.index)
    (derivations : List Derivation) :
    Engine.watch ⟨derivations, simulator.engine.watches⟩ after.snapshot =
      .ok (simulator.engine.watches.filterMap (Watch.transition? after.snapshot),
        ⟨derivations, simulator.engine.watches.map (Watch.observe after.snapshot)⟩) := by
  rw [Engine.watch_eq_ok_iff]
  exact ⟨((checkInputs_eq_ok_iff indexed names index).1 checked).2, rfl, rfl⟩

end Simulator

namespace Session

variable {σ ρ : Type} (session : Session σ ρ)

/-- What a step reports, and the session after it, where nothing is missing. -/
def stepped [Source ρ] : TickReport × Session σ ρ :=
  let engine := session.simulator.engine
  let (store, source) := session.simulator.store.tick session.source
  let snapshot := store.snapshot
  let derived : Metrics :=
    ⟨snapshot.tick, engine.derivations.map fun derivation => derivation.evaluate snapshot⟩
  let transitions := engine.watches.filterMap (Watch.transition? snapshot)
  let (failed, outside) := dispatch session.simulator.observers
    (.tick snapshot :: .derived derived :: transitions.map .threshold) session.outside
  (⟨snapshot, derived, transitions, failed⟩,
    { simulator := { session.simulator with
        store := store
        engine := ⟨engine.derivations.map (.remember snapshot),
          engine.watches.map (Watch.observe snapshot)⟩
        listenerFailures := session.simulator.listenerFailures + failed }
      source := source
      outside := outside })

/-- The transitions of an override that left `store`, and the session after
it. -/
def overridden (store : Store) : List Transition × Session σ ρ :=
  let engine := session.simulator.engine
  let transitions := engine.watches.filterMap (Watch.transition? store.snapshot)
  let (failed, outside) :=
    dispatch session.simulator.observers (transitions.map .threshold) session.outside
  (transitions,
    { session with
      simulator := { session.simulator with
        store := store
        engine := ⟨engine.derivations, engine.watches.map (Watch.observe store.snapshot)⟩
        listenerFailures := session.simulator.listenerFailures + failed }
      outside := outside })

/-- A step is its check, or all of its work. Once the check has passed, deriving
and watching find what they look for, and nothing else in a step can refuse. -/
theorem step_on [Source ρ] (indexed : session.simulator.store.Indexed) :
    step.on session =
      match session.simulator.checkInputs with
      | .error fault => (.error fault, session)
      | .ok () => (.ok session.stepped.1, session.stepped.2) := by
  cases checked : session.simulator.checkInputs with
  | error fault => simp [step, checkInputs_on, checked]
  | ok =>
    -- The readings have moved, the names and the index have not: deriving and watching
    -- look for what the check has found.
    have names := Store.names_tick session.simulator.store session.source
    have index := Store.index_tick session.simulator.store session.source
    have derived := Simulator.recompute_of_checked indexed checked names index
    have watched := Simulator.watch_of_checked indexed checked names index
    simp [step, checkInputs_on, checked, tick_on, recompute_on, derived, watch_on, watched,
      notify_on, announce_on, recordFailures_on, stepped, dispatch, Event.kind,
      Nat.add_assoc]

/-- An override is its check, the store's refusal, or all of its work. The store
writes only if it accepts, and watching then finds the same channels as
before. -/
theorem setValue_on (indexed : session.simulator.store.Indexed) (name : String) (value : Float) :
    (setValue name value).on session =
      match session.simulator.checkInputs with
      | .error fault => (.error fault, session)
      | .ok () =>
        match session.simulator.store.setValue name value with
        | .error fault => (.error fault, session)
        | .ok (_, store) => (.ok (session.overridden store).1, (session.overridden store).2) := by
  cases checked : session.simulator.checkInputs with
  | error fault => simp [setValue, checkInputs_on, checked]
  | ok =>
    cases written : session.simulator.store.setValue name value with
    | error fault => simp [setValue, checkInputs_on, checked, overwrite_on, written]
    | ok result =>
      obtain ⟨stored, store⟩ := result
      obtain ⟨names, index⟩ := Store.names_setValue written
      have watched := Simulator.watch_of_checked indexed checked names index
        session.simulator.engine.derivations
      simp [setValue, checkInputs_on, checked, overwrite_on, written, watch_on, watched,
        announce_on, recordFailures_on, overridden]

/-- Raising an alert is never refused, and adds to the alerts only, apart from
the count of listeners that failed to hear of it. It is dated by the ticks of
the store. -/
theorem raiseAlert_on (name message : String) (severity : Severity) :
    (raiseAlert name message severity).on session =
      let alert : Alert := ⟨name, message, severity, some session.simulator.store.ticks⟩
      let told := dispatch session.simulator.observers [.alert alert] session.outside
      (.ok alert,
        { session with
          simulator := { session.simulator with
            alerts := session.simulator.alerts ++ [alert]
            listenerFailures := session.simulator.listenerFailures + told.1 }
          outside := told.2 }) := by
  simp [raiseAlert, notify_on, recordFailures_on, dispatch, Event.kind]

end Session

end Telemetry
