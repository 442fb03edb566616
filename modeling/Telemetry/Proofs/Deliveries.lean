import Telemetry.Proofs.ListenerIndependence
import Telemetry.Proofs.Subscriptions

/-!
# Events are delivered, and failures are counted, each once

To see what reaches the listeners, let them keep a record. Every listener is
wrapped so that it notes each of its calls, with the event and how the call
ended, and the hook so that it notes what it is told. The wrapped listeners do
what the plain ones do, so a run with a record is the plain run beside its
notes.

The notes show that a call of the simulator reaches every listener of an event's
kind in the order of subscription, event after event, and nobody else. Each
failed call is followed by one call of the hook and adds one to the count of
failures. Over a whole run the record of a listener is what the steps and
overrides have returned, as long as its handle is not used.
-/
namespace Telemetry

open Observer (Listener Outcome Registry Report)

/-- A line of a record. -/
inductive Note where
  /-- The listener of a number was called with an event. -/
  | called (id : Nat) (event : Event) (outcome : Outcome)
  /-- The hook was told of a failure. -/
  | hooked (kind : EventKind) (fault : Fault)

namespace Note

/-- The call that a line tells of. -/
def call? : Note → Option (Nat × Event)
  | called id event _ => some (id, event)
  | hooked _ _ => none

/-- Whether a line tells of a call that returned an error or crashed. -/
def isFailure : Note → Bool
  | called _ _ outcome => outcome.fault?.isSome
  | hooked _ _ => false

/-- Whether a line tells of the hook. -/
def isHook : Note → Bool
  | called _ _ _ => false
  | hooked _ _ => true

end Note

/-- The transition that an event carries. -/
def Event.transition? : Event → Option Transition
  | threshold transition => some transition
  | _ => none

/-- The transition that a call with an event brings to the listener of a
number. -/
def transitionFor (id : Nat) (call : Nat × Event) : Option Transition :=
  if call.1 = id then call.2.transition? else none

section Recording

variable {σ : Type}

/-- How a record is kept: a line for each call of a listener, and one for each
failure that the hook is told of. -/
def recording : Observer.Diary EventKind Event Note where
  called := .called
  hooked := fun kind fault => [.hooked kind fault]

/-- A registry whose listeners and whose hook keep a record. -/
def Observer.Registry.recorded (registry : Registry EventKind σ (Listener Event σ)) :
    Registry EventKind (σ × List Note) (Listener Event (σ × List Note)) :=
  recording.kept registry

/-- What a record must hold: these calls in this order, so many of them failed,
and the hook told as often. -/
structure Accounted (calls : List (Nat × Event)) (failed : Nat) (notes : List Note) : Prop where
  calls : notes.filterMap Note.call? = calls
  failures : notes.countP Note.isFailure = failed
  hooks : notes.countP Note.isHook = failed

/-- An empty record accounts for no calls. -/
theorem accounted_nil : Accounted [] 0 [] := ⟨rfl, rfl, rfl⟩

/-- Records one behind the other account for the calls of both, in this order,
and for the failures of both. -/
theorem Accounted.append {first second : List (Nat × Event)} {failed later : Nat}
    {former latter : List Note} (front : Accounted first failed former)
    (back : Accounted second later latter) :
    Accounted (first ++ second) (failed + later) (former ++ latter) where
  calls := by rw [List.filterMap_append, front.calls, back.calls]
  failures := by rw [List.countP_append, front.failures, back.failures]
  hooks := by rw [List.countP_append, front.hooks, back.hooks]

/-- The calls that events cause, event after event and listener after
listener. -/
def addressed (observers : Registry EventKind σ (Listener Event σ)) (events : List Event) :
    List (Nat × Event) :=
  events.flatMap fun event => (observers.ids event.kind).map fun id => (id, event)

/-- The lines that calls of listeners with one event leave in a record account
for these calls. Each call has a line of its own, and a failed one a second line
for the hook. -/
theorem accounted_lines (kind : EventKind) (event : Event) (heard : List (Nat × Outcome)) :
    Accounted (heard.map fun call => (call.1, event))
      (heard.countP fun call => call.2.fault?.isSome)
      (heard.flatMap (recording.lines kind event)) := by
  induction heard with
  | nil => exact accounted_nil
  | cons call rest inductionHypothesis =>
    have own : Accounted [(call.1, event)] (if call.2.fault?.isSome = true then 1 else 0)
        (recording.lines kind event call) := by
      cases ended : call.2.fault? with
      | none =>
        constructor <;> simp [recording, Observer.Diary.lines, ended, Note.call?, Note.isFailure,
          Note.isHook]
      | some fault =>
        constructor <;> simp [recording, Observer.Diary.lines, ended, Note.call?, Note.isFailure,
          Note.isHook]
    rw [List.flatMap_cons, List.countP_cons, Nat.add_comm]
    exact own.append inductionHypothesis

/-- Recording changes nothing about dispatches made one after another, and the
record accounts for all of them. Each event is a dispatch of its own, whose
lines come before those of the next. -/
theorem dispatch_recorded (observers : Registry EventKind σ (Listener Event σ))
    (events : List Event) (outside : σ) (notes : List Note) :
    let told := dispatch observers events outside
    ∃ made, dispatch observers.recorded events (outside, notes) =
        (told.1, (told.2, notes ++ made)) ∧
      Accounted (addressed observers events) told.1 made := by
  induction events generalizing outside notes with
  | nil => exact ⟨[], by rw [List.append_nil]; rfl, accounted_nil⟩
  | cons event rest inductionHypothesis =>
    obtain ⟨heard, ids, failed, told⟩ :=
      recording.notify_kept observers event.kind event outside notes
    rw [← Registry.recorded] at told
    obtain ⟨further, later, alsoAccounted⟩ := inductionHypothesis
      (observers.notify event.kind event outside).2
      (notes ++ heard.flatMap (recording.lines event.kind event))
    refine ⟨heard.flatMap (recording.lines event.kind event) ++ further, ?_, ?_⟩
    · simp only [dispatch, told, later, List.append_assoc]
    · have calls : addressed observers (event :: rest) =
          (heard.map fun call => (call.1, event)) ++ addressed observers rest := by
        rw [addressed, List.flatMap_cons, ← ids, List.map_map]
        rfl
      have accounted := accounted_lines event.kind event heard
      rw [← failed] at accounted
      rw [calls]
      exact accounted.append alsoAccounted

end Recording

namespace Simulator

variable {σ : Type}

/-- A simulator whose listeners keep a record. -/
def recorded (simulator : Simulator σ) : Simulator (σ × List Note) :=
  { store := simulator.store
    engine := simulator.engine
    observers := simulator.observers.recorded
    alerts := simulator.alerts
    listenerFailures := simulator.listenerFailures }

/-- A simulator and the world outside, with a record as it stands. -/
def withRecord (state : Simulator σ × σ) (notes : List Note) :
    Simulator (σ × List Note) × (σ × List Note) :=
  (state.1.recorded, (state.2, notes))

/-- The same call, with a record kept by the listener or the hook that it
brings. The number is that of the next subscription. -/
def Call.recorded (id : Nat) : Call σ → Call (σ × List Note)
  | .registerChannel spec => .registerChannel spec
  | .registerDerivation name dependsOn compute => .registerDerivation name dependsOn compute
  | .registerRule rule => .registerRule rule
  | .engine call => .engine call
  | @Call.step _ _ _ source => .step source
  | .setValue name value => .setValue name value
  | .raiseAlert name message severity => .raiseAlert name message severity
  | .clearAlert name => .clearAlert name
  | .subscribe kind listener => .subscribe kind (recording.listener id listener)
  | .unsubscribe handle => .unsubscribe handle
  | .setHook hook => .setHook (recording.hook hook)
  | .notify kind event => .notify kind event

/-- Who listens and how is all that a record changes, so that a call with a
record asks the same of the simulation. -/
theorem muted_recorded (id : Nat) (call : Call σ) : (call.recorded id).muted = call.muted := by
  cases call <;> rfl

/-- A simulator is its simulation, its listeners and its count of failures. Two
of them are compared by these three. -/
theorem eq_of_parts {first second : Simulator σ} (simulation : first.muted = second.muted)
    (observers : first.observers = second.observers)
    (failures : first.listenerFailures = second.listenerFailures) : first = second := by
  cases first
  cases second
  simp only [muted, Simulator.mk.injEq] at simulation observers failures ⊢
  exact ⟨simulation.1, simulation.2.1, observers, simulation.2.2.2.1, failures⟩

/-- Keeping a record and changing who listens can be done in either order. The
number that a new listener records under is the one that it is about to get. -/
theorem observers_recorded {state : Simulator σ × σ} (indexed : state.1.store.Indexed)
    (call : Call σ) (notes : List Note) :
    (perform (withRecord state notes) (call.recorded state.1.observers.nextId)).1.observers =
      (perform state call).1.observers.recorded := by
  have sameIndex : (withRecord state notes).1.store.Indexed := indexed
  rw [observers_perform sameIndex, observers_perform indexed]
  cases call with
  | subscribe kind listener =>
    exact congrArg Prod.snd (Registry.rewired_subscribe recording.listener recording.hook
      state.1.observers kind listener)
  | unsubscribe handle =>
    exact congrArg Prod.snd (Registry.rewired_unsubscribe recording.listener recording.hook
      state.1.observers handle)
  | setHook hook => rfl
  | registerChannel _ | registerDerivation _ _ _ | registerRule _ | engine _ | step _
  | setValue _ _ | raiseAlert _ _ _ | clearAlert _ | notify _ _ => rfl

/-- A call made with a record does what the plain call does, and the record
accounts for the events that the call announces. -/
theorem perform_recorded {state : Simulator σ × σ} (indexed : state.1.store.Indexed)
    {call : Call σ} (indirect : ∀ kind event, call ≠ .notify kind event) (notes : List Note) :
    ∃ made, perform (withRecord state notes) (call.recorded state.1.observers.nextId) =
        withRecord (perform state call) (notes ++ made) ∧
      Accounted (addressed state.1.observers (told state call))
        (dispatch state.1.observers (told state call) state.2).1 made := by
  have sameIndex : (withRecord state notes).1.store.Indexed := indexed
  have stillIndirect : ∀ kind event,
      call.recorded state.1.observers.nextId ≠ .notify kind event := by
    intro kind event
    cases call with
    | notify kind event => exact absurd rfl (indirect kind event)
    | registerChannel _ | registerDerivation _ _ _ | registerRule _ | engine _ | step _
    | setValue _ _ | raiseAlert _ _ _ | clearAlert _ | subscribe _ _ | unsubscribe _
    | setHook _ => exact nofun
  have simulation : (withRecord state notes).1.muted = state.1.muted := rfl
  obtain ⟨sameSimulation, sameEvents⟩ := perform_alike sameIndex simulation
    (muted_recorded state.1.observers.nextId call)
  -- Both calls announce the same events, to listeners that do the same beside the record.
  obtain ⟨made, dispatched, accounted⟩ :=
    dispatch_recorded state.1.observers (told state call) state.2 notes
  have start : dispatch (withRecord state notes).1.observers (told state call)
      (withRecord state notes).2 = _ := dispatched
  obtain ⟨plainFailures, plainOutside⟩ := dispatched_perform indexed indirect
  obtain ⟨failures, outside⟩ := dispatched_perform sameIndex stillIndirect
  rw [sameEvents, start] at failures outside
  have observers := observers_recorded indexed call notes
  refine ⟨made, Prod.ext (eq_of_parts sameSimulation observers ?_) ?_, accounted⟩
  · exact failures.trans plainFailures.symm
  · rw [outside, withRecord, plainOutside]

/-- The number of the next subscription after a call. -/
def Call.nextId (id : Nat) : Call σ → Nat
  | .subscribe _ _ => id + 1
  | _ => id

/-- Only subscribing uses a number up. -/
theorem nextId_perform {state : Simulator σ × σ} (indexed : state.1.store.Indexed)
    (call : Call σ) :
    (perform state call).1.observers.nextId = call.nextId state.1.observers.nextId := by
  rw [observers_perform indexed]
  cases call <;> rfl

/-- The same calls, with a record kept by every listener and hook that they
bring. The number is that of the first subscription. -/
def recordedCalls : Nat → List (Call σ) → List (Call (σ × List Note))
  | _, [] => []
  | id, call :: rest => call.recorded id :: recordedCalls (call.nextId id) rest

/-- The listener calls that a call of the simulator causes. -/
def delivered (state : Simulator σ × σ) (call : Call σ) : List (Nat × Event) :=
  addressed state.1.observers (told state call)

/-- The reports of the dispatches that a call of the simulator makes. -/
def dispatches (state : Simulator σ × σ) (call : Call σ) : List Report :=
  dispatchReports state.1.observers (told state call) state.2

/-- A run made with a record is the plain run, and the record accounts for it.
The count of failures grows by what the reports of all dispatches say. -/
theorem run_recorded {state : Simulator σ × σ} (reachable : state.1.store.Reachable)
    {calls : List (Call σ)} (indirect : ∀ kind event, .notify kind event ∉ calls)
    (notes : List Note) :
    ∃ made, run (recordedCalls state.1.observers.nextId calls) (withRecord state notes) =
        withRecord (run calls state) (notes ++ made) ∧
      Accounted (along perform delivered calls state)
        ((along perform dispatches calls state).map Report.failed).sum made ∧
      (run calls state).1.listenerFailures =
        state.1.listenerFailures +
          ((along perform dispatches calls state).map Report.failed).sum := by
  induction calls generalizing state notes with
  | nil => exact ⟨[], by rw [List.append_nil]; rfl, accounted_nil, rfl⟩
  | cons call rest inductionHypothesis =>
    have first : ∀ kind event, call ≠ .notify kind event := by
      rintro kind event rfl
      exact indirect kind event List.mem_cons_self
    have later : ∀ kind event, .notify kind event ∉ rest := fun kind event member =>
      indirect kind event (List.mem_cons_of_mem call member)
    have indexed := reachable.indexed
    obtain ⟨made, done, accounted⟩ := perform_recorded indexed first notes
    obtain ⟨further, finished, alsoAccounted, failures⟩ :=
      inductionHypothesis (reachable_perform reachable call) later (notes ++ made)
    have split : ((along perform dispatches (call :: rest) state).map Report.failed).sum =
        (dispatch state.1.observers (told state call) state.2).1 +
          ((along perform dispatches rest (perform state call)).map Report.failed).sum := by
      rw [along, List.map_append, List.sum_append, dispatch_failed]
      rfl
    refine ⟨made ++ further, ?_, ?_, ?_⟩
    · rw [← List.append_assoc, run, run, recordedCalls, List.foldl_cons, List.foldl_cons, done,
        ← nextId_perform indexed call]
      exact finished
    · rw [split]
      exact accounted.append alsoAccounted
    · have added := (dispatched_perform indexed first).1
      rw [added] at failures
      rw [split, ← Nat.add_assoc]
      exact failures

section Seen

variable {state : Simulator σ × σ}

/-- Calls keep the subscriptions numbered, since only subscribing gives a number
and only unsubscribing takes an entry away. -/
theorem numbered_perform (indexed : state.1.store.Indexed)
    (numbered : state.1.observers.Numbered) (call : Call σ) :
    (perform state call).1.observers.Numbered := by
  rw [observers_perform indexed]
  cases call with
  | subscribe kind listener => exact Registry.numbered_subscribe numbered kind listener
  | unsubscribe handle => exact Registry.numbered_unsubscribe numbered handle
  | setHook hook => exact ⟨numbered.distinct, numbered.issued⟩
  | registerChannel _ | registerDerivation _ _ _ | registerRule _ | engine _ | step _
  | setValue _ _ | raiseAlert _ _ _ | clearAlert _ | notify _ _ => exact numbered

/-- Subscriptions have numbers of their own after every run from a new
simulator. -/
theorem numbered_start (calls : List (Call σ)) (outside : σ) :
    (run calls ({}, outside)).1.observers.Numbered := by
  have both := List.foldlRecOn (motive := fun state : Simulator σ × σ =>
      state.1.store.Reachable ∧ state.1.observers.Numbered) calls perform
    (b := ({}, outside)) ⟨⟨[], rfl⟩, Registry.numbered_empty⟩
    fun _ held call _ =>
      ⟨reachable_perform held.1 call, numbered_perform held.1.indexed held.2 call⟩
  exact both.2

/-- A subscription stays until its handle is used. Other handles name other
subscriptions, and other calls leave the registry. -/
theorem subscribed_perform (indexed : state.1.store.Indexed) {handle : Observer.Handle EventKind}
    (subscribed : state.1.observers.Subscribed handle) {call : Call σ}
    (kept : call ≠ .unsubscribe handle) :
    (perform state call).1.observers.Subscribed handle := by
  rw [observers_perform indexed]
  cases call with
  | subscribe kind listener => exact Registry.subscribed_subscribe subscribed kind listener
  | unsubscribe other =>
    exact Registry.subscribed_unsubscribe subscribed fun same => kept (congrArg _ same)
  | setHook hook => exact subscribed
  | registerChannel _ | registerDerivation _ _ _ | registerRule _ | engine _ | step _
  | setValue _ _ | raiseAlert _ _ _ | clearAlert _ | notify _ _ => exact subscribed

/-- The transitions that a call announces are those that it returns, in their
order, because each is announced as an event of its own. -/
theorem transitions_told (state : Simulator σ × σ) (call : Call σ) :
    (told state call).filterMap Event.transition? = returned state call := by
  have thresholds : ∀ transitions : List Transition,
      (transitions.map Event.threshold).filterMap Event.transition? = transitions := by
    intro transitions
    rw [List.filterMap_map]
    exact List.filterMap_some
  cases call with
  | step source =>
    rw [told, returned, List.filterMap_flatMap]
    congr 1
    funext report
    exact thresholds report.transitions
  | setValue name value => exact thresholds _
  | registerChannel _ | registerDerivation _ _ _ | registerRule _ | engine _ | raiseAlert _ _ _
  | clearAlert _ | subscribe _ _ | unsubscribe _ | setHook _ | notify _ _ => rfl

/-- Among listeners with numbers of their own, one is called once, and gets what
the event carries. -/
theorem transitions_of_event {ids : List Nat} (distinct : ids.Nodup) {id : Nat} (member : id ∈ ids)
    (event : Event) :
    (ids.map fun other => (other, event)).filterMap (transitionFor id) =
      event.transition?.toList := by
  induction ids with
  | nil => exact nomatch member
  | cons first rest inductionHypothesis =>
    obtain ⟨fresh, restDistinct⟩ := List.nodup_cons.mp distinct
    by_cases same : first = id
    · subst same
      have others :
          (rest.map fun other => (other, event)).filterMap (transitionFor first) = [] := by
        rw [List.filterMap_eq_nil_iff]
        intro call within
        obtain ⟨other, listed, rfl⟩ := List.mem_map.mp within
        exact if_neg fun same : other = first => fresh (same ▸ listed)
      cases carried : event.transition? <;>
        simp [transitionFor, carried, others]
    · have later : id ∈ rest := (List.mem_cons.mp member).resolve_left (Ne.symm same)
      have missed : transitionFor id (first, event) = none := if_neg same
      rw [List.map_cons, List.filterMap_cons_none missed]
      exact inductionHypothesis restDistinct later

/-- A subscribed listener is handed the transitions that a call returns: of each
event of its kind it hears once, and events of other kinds carry none. -/
theorem transitions_delivered (numbered : state.1.observers.Numbered) {id : Nat}
    (subscribed : state.1.observers.Subscribed ⟨.threshold, id⟩) (call : Call σ) :
    (delivered state call).filterMap (transitionFor id) = returned state call := by
  have each : ∀ event : Event,
      ((state.1.observers.ids event.kind).map fun other => (other, event)).filterMap
        (transitionFor id) = event.transition?.toList := by
    intro event
    cases event with
    | threshold transition =>
      exact transitions_of_event (Registry.ids_nodup numbered .threshold)
        (Registry.mem_ids_iff.mpr subscribed) (.threshold transition)
    | tick _ | derived _ | alert _ =>
      refine List.filterMap_eq_nil_iff.mpr fun call within => ?_
      obtain ⟨other, _, rfl⟩ := List.mem_map.mp within
      exact ite_self none
  rw [← transitions_told, delivered, addressed, List.filterMap_flatMap,
    List.filterMap_eq_flatMap_toList]
  exact congrArg (fun part => (told state call).flatMap part) (funext each)

/-- A listener is handed the transitions that the calls of a run return, as long
as its handle is not used. -/
theorem transitions_along (reachable : state.1.store.Reachable)
    (numbered : state.1.observers.Numbered) {id : Nat}
    (subscribed : state.1.observers.Subscribed ⟨.threshold, id⟩) {calls : List (Call σ)}
    (kept : .unsubscribe ⟨.threshold, id⟩ ∉ calls) :
    (along perform delivered calls state).filterMap (transitionFor id) =
      along perform returned calls state := by
  induction calls generalizing state with
  | nil => rfl
  | cons call rest inductionHypothesis =>
    have indexed := reachable.indexed
    have still := subscribed_perform indexed subscribed
      (List.ne_of_not_mem_cons kept).symm
    rw [along, along, List.filterMap_append, transitions_delivered numbered subscribed,
      inductionHypothesis (reachable_perform reachable call)
        (numbered_perform indexed numbered call) still (List.not_mem_of_not_mem_cons kept)]

end Seen

section Steps

variable {state : Simulator σ × σ} {ρ : Type} [Source ρ] {source : ρ} {report : TickReport}
  {after : Session σ ρ}

/-- A step that succeeds has passed its check and done all of its work, so that
its report and what it leaves are given by the closed form. -/
theorem stepped_of_succeeded (indexed : state.1.store.Indexed)
    (succeeded : Session.step.on ⟨state.1, source, state.2⟩ = (.ok report, after)) :
    let done := Session.stepped ⟨state.1, source, state.2⟩
    state.1.checkInputs = .ok () ∧ report = done.1 ∧ after = done.2 := by
  have whole := Session.step_on ⟨state.1, source, state.2⟩ indexed
  rw [succeeded] at whole
  cases checked : state.1.checkInputs with
  | error fault =>
    rw [checked] at whole
    exact nomatch (Prod.mk.inj whole).1
  | ok =>
    rw [checked] at whole
    obtain ⟨sameReport, sameSession⟩ := Prod.mk.inj whole
    exact ⟨rfl, Except.ok.inj sameReport, sameSession⟩

/-- A step made with a record does what the plain step does, and the record
accounts for its report. -/
theorem step_recorded (indexed : state.1.store.Indexed)
    (succeeded : Session.step.on ⟨state.1, source, state.2⟩ = (.ok report, after))
    (notes : List Note) :
    ∃ made, Session.step.on (⟨state.1.recorded, source, (state.2, notes)⟩ : Session _ ρ) =
        (.ok report,
          ⟨after.simulator.recorded, after.source, (after.outside, notes ++ made)⟩) ∧
      Accounted (addressed state.1.observers report.events) report.listenerFailures made := by
  obtain ⟨checked, rfl, rfl⟩ := stepped_of_succeeded indexed succeeded
  have sameCheck : state.1.recorded.checkInputs = .ok () := checked
  have whole := Session.step_on ⟨state.1.recorded, source, (state.2, notes)⟩ indexed
  rw [sameCheck] at whole
  obtain ⟨made, dispatched, accounted⟩ := dispatch_recorded state.1.observers
    (Session.stepped ⟨state.1, source, state.2⟩).1.events state.2 notes
  refine ⟨made, ?_, accounted⟩
  rw [whole]
  simp only [Session.stepped, TickReport.events, recorded] at dispatched ⊢
  simp only [dispatched]

/-- A step moves the clock by one, and all that it reports is of the new tick:
the metrics and the transitions are derived from the one snapshot taken after
the move. -/
theorem step_ticks (indexed : state.1.store.Indexed)
    (succeeded : Session.step.on ⟨state.1, source, state.2⟩ = (.ok report, after)) :
    report.snapshot = after.simulator.snapshot ∧
      report.snapshot.tick = state.1.snapshot.tick + 1 ∧
      report.derived.tick = report.snapshot.tick ∧
      (∀ metric ∈ report.derived.metrics, metric.tick = report.snapshot.tick) ∧
      ∀ transition ∈ report.transitions, transition.snapshot.tick = report.snapshot.tick := by
  obtain ⟨-, rfl, rfl⟩ := stepped_of_succeeded indexed succeeded
  refine ⟨rfl, ?_, rfl, ?_, ?_⟩
  · have clock : (state.1.store.tick source).1.snapshot.tick = state.1.store.ticks + 1 :=
      Store.tick_snapshot _
    rw [snapshot, Store.tick_snapshot state.1.store]
    exact clock
  · intro metric member
    obtain ⟨derivation, _, rfl⟩ := List.mem_map.mp member
    rfl
  · intro transition member
    obtain ⟨watch, _, changed⟩ := List.mem_filterMap.mp member
    unfold Watch.transition? at changed
    split at changed
    · cases changed
    · cases changed
      rfl

end Steps

/-- The failures that a call owns up to: a step in its report, every other call
in the reports of its dispatches. -/
def failures (state : Simulator σ × σ) : Call σ → List Nat
  | @Call.step _ _ _ source => (reported state (.step source)).map TickReport.listenerFailures
  | call => (dispatches state call).map Report.failed

/-- The report of a step counts the failures of all its dispatches. For other
calls these are the same by definition. -/
theorem sum_failures {state : Simulator σ × σ} (indexed : state.1.store.Indexed) (call : Call σ) :
    (failures state call).sum = ((dispatches state call).map Report.failed).sum := by
  cases call with
  | step source =>
    rw [failures, dispatches, told, ← dispatch_failed]
    cases checked : state.1.checkInputs with
    | error fault =>
      rw [(step_of_unchecked indexed checked source).2]
      rfl
    | ok =>
      rw [(step_of_checked indexed checked source).2]
      simp only [List.map_cons, List.map_nil, List.sum_singleton, List.flatMap_cons,
        List.flatMap_nil, List.append_nil]
      rfl
  | registerChannel _ | registerDerivation _ _ _ | registerRule _ | engine _ | setValue _ _
  | raiseAlert _ _ _ | clearAlert _ | subscribe _ _ | unsubscribe _ | setHook _ | notify _ _ => rfl

/-- So the reports of a whole run count the failures of all its dispatches. -/
theorem sum_failures_along {state : Simulator σ × σ} (reachable : state.1.store.Reachable)
    (calls : List (Call σ)) :
    (along perform failures calls state).sum =
      ((along perform dispatches calls state).map Report.failed).sum := by
  induction calls generalizing state with
  | nil => rfl
  | cons call rest inductionHypothesis =>
    rw [along, along, List.sum_append, List.map_append, List.sum_append,
      sum_failures reachable.indexed, inductionHypothesis (reachable_perform reachable call)]

/-- From every state that calls can reach, a step that succeeds dispatches its
snapshot, then its metrics, then each of its transitions, each to all listeners
of its kind in the order of subscription, and it reports how many of those
listener calls failed. What it reports is all of one tick, the one after the
last.

Over a run without dispatches made past the simulator, a listener of transitions
that stays subscribed is handed what the steps and overrides return, one after
another. The count of failures grows by the number of listener calls that return
an error or crash, which is how often the hook is called, and what all reports
together say.

The listeners of the same run are made to keep a record. What the record holds
is known call by call, and keeping it changes nothing. -/
theorem deliveries_accounted (before : List (Call σ)) (outside : σ) :
    let state := run before ({}, outside)
    (∀ (ρ : Type) [Source ρ] (source : ρ) (report : TickReport) (after : Session σ ρ),
      Session.step.on ⟨state.1, source, state.2⟩ = (.ok report, after) →
        (∀ notes, ∃ made,
          Session.step.on (⟨state.1.recorded, source, (state.2, notes)⟩ : Session _ ρ) =
              (.ok report,
                ⟨after.simulator.recorded, after.source, (after.outside, notes ++ made)⟩) ∧
            made.filterMap Note.call? = addressed state.1.observers
              (.tick report.snapshot :: .derived report.derived ::
                report.transitions.map .threshold) ∧
            made.countP Note.isFailure = report.listenerFailures) ∧
        report.snapshot = after.simulator.snapshot ∧
        report.snapshot.tick = state.1.snapshot.tick + 1 ∧
        report.derived.tick = report.snapshot.tick ∧
        (∀ metric ∈ report.derived.metrics, metric.tick = report.snapshot.tick) ∧
        ∀ transition ∈ report.transitions, transition.snapshot.tick = report.snapshot.tick) ∧
    ∀ calls : List (Call σ), (∀ kind event, .notify kind event ∉ calls) → ∀ notes,
      ∃ made, run (recordedCalls state.1.observers.nextId calls) (withRecord state notes) =
          withRecord (run calls state) (notes ++ made) ∧
        (∀ id, state.1.observers.Subscribed ⟨.threshold, id⟩ →
          .unsubscribe ⟨.threshold, id⟩ ∉ calls →
            (made.filterMap Note.call?).filterMap (transitionFor id) =
              along perform returned calls state) ∧
        (run calls state).1.listenerFailures =
          state.1.listenerFailures + made.countP Note.isFailure ∧
        made.countP Note.isFailure = made.countP Note.isHook ∧
        made.countP Note.isFailure = (along perform failures calls state).sum ∧
        made.countP Note.isFailure =
          ((along perform dispatches calls state).map Report.failed).sum := by
  have reachable := reachable_start before outside
  have numbered := numbered_start before outside
  refine ⟨?_, ?_⟩
  · intro ρ _ source report after succeeded
    refine ⟨fun notes => ?_, step_ticks reachable.indexed succeeded⟩
    obtain ⟨made, recorded, accounted⟩ := step_recorded reachable.indexed succeeded notes
    exact ⟨made, recorded, accounted.calls, accounted.failures⟩
  · intro calls indirect notes
    obtain ⟨made, recorded, accounted, counted⟩ := run_recorded reachable indirect notes
    refine ⟨made, recorded, ?_, ?_, ?_, ?_, accounted.failures⟩
    · intro id subscribed kept
      rw [accounted.calls]
      exact transitions_along reachable numbered subscribed kept
    · rw [accounted.failures]
      exact counted
    · rw [accounted.failures, accounted.hooks]
    · rw [accounted.failures, sum_failures_along reachable]

/-- An oven gets too hot in the first step. The listener of snapshots fails, so
the step reports one failure, and the listener of transitions is called all the
same. -/
theorem deliveries_accounted_failing :
    let oven : ChannelSpec := ⟨"oven", 250, 0, 300, 5⟩
    let hot : Rule := ⟨"hot", "oven", .above, 200, .warning, ""⟩
    let failing : Listener Event Nat := fun _ calls => (.failed (.reported .io "full"), calls + 1)
    let listening : Listener Event Nat := fun _ calls => (.handled, calls)
    let before : List (Call Nat) := [.registerChannel oven, .registerRule hot,
      .subscribe .tick failing, .subscribe .threshold listening]
    let state := run before ({}, 0)
    let source : Fixed := ⟨1⟩
    ∃ report after made, Session.step.on ⟨state.1, source, state.2⟩ = (.ok report, after) ∧
      report.snapshot.tick = 1 ∧ report.transitions.map Transition.edge = [.active] ∧
      report.listenerFailures = 1 ∧ after.outside = 1 ∧
      Session.step.on (⟨state.1.recorded, source, (state.2, [])⟩ : Session _ Fixed) =
        (.ok report, ⟨after.simulator.recorded, after.source, (after.outside, made)⟩) ∧
      (made.filterMap Note.call?).map (fun call => (call.1, call.2.kind)) =
        [(1, .tick), (2, .threshold)] ∧
      made.countP Note.isFailure = 1 := by
  intro oven hot failing listening before state source
  let store : Store :=
    { channels := #[.ofSpec oven], index := ({} : Std.HashMap _ _).insert "oven" 0 }
  let engine : Engine := { watches := [⟨hot, false⟩] }
  let observers : Registry EventKind Nat (Listener Event Nat) :=
    { entries := [⟨.tick, 1, failing⟩, ⟨.threshold, 2, listening⟩], nextId := 3 }
  let ready : Simulator Nat := { store := store, engine := engine, observers := observers }
  have registered : Store.register {} oven = .ok store :=
    Store.register_eq_ok_iff.mpr
      ⟨ChannelSpec.check_eq_ok_iff.mpr (by decide), by simp [Store.contains], rfl⟩
  have accepted : Engine.registerRule {} hot = .ok engine :=
    Engine.registerRule_eq_ok_iff.mpr ⟨Rule.check_eq_ok_iff.mpr (by decide), by simp, rfl⟩
  have known : store.contains "oven" = true := by simp [store, Store.contains]
  have prepared : run before ({}, 0) = (ready, 0) := by
    simp [before, run, perform, registerChannel, registered, standing_registerRule, hot,
      known, Engine.perform, accepted, Registry.subscribe, ready, observers]
  have checked : ready.checkInputs = .ok () :=
    Engine.checkInputs_eq_ok_iff.mpr
      ⟨rfl, by simp [Engine.missingRuleChannel?, ready, engine, hot, known]⟩
  have indexed : ready.store.Indexed := Store.indexed_register Store.indexed_empty registered
  have stepped := Session.step_on ⟨ready, source, 0⟩ indexed
  rw [checked] at stepped
  have accounted := deliveries_accounted before 0
  rw [prepared] at accounted
  obtain ⟨recorded, _, tick, _⟩ := accounted.1 Fixed source _ _ stepped
  obtain ⟨made, done, calls, failures⟩ := recorded []
  have failed : (Session.stepped ⟨ready, source, 0⟩).1.listenerFailures = 1 := by
    decide +kernel
  rw [show state = (ready, 0) from prepared]
  refine ⟨_, _, made, stepped, tick, ?_, failed, ?_, done, ?_, failures.trans failed⟩
  · decide +kernel
  · decide +kernel
  · rw [calls]
    decide +kernel

end Simulator

end Telemetry
