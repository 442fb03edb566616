import Mathlib.Algebra.GroupWithZero.Nat
import Telemetry.Proofs.DispatchRecords
import Telemetry.Proofs.Histories
import Telemetry.Proofs.SimulatorRuns

/-!
# What a call announces

A simulator speaks to the world outside through its listeners only. Each call
announces a list of events: a step its snapshot, its metrics and its
transitions, an override its transitions, an alert itself, and every other call
nothing. The world outside after a call is the world after these events were
dispatched one after another, and the failed listener calls of those dispatches
are what the call adds to the count of failures. A dispatch made through the
registry itself is the one call that this does not cover.

The events do not depend on who listens. They are read off the answers of the
calls, so that what is announced and what is returned cannot differ.
-/
namespace Telemetry

/-- The events that a step announces, in order. -/
def TickReport.events (report : TickReport) : List Event :=
  .tick report.snapshot :: .derived report.derived :: report.transitions.map .threshold

/-- The reports of dispatches made one after another. -/
def dispatchReports {σ : Type}
    (observers : Observer.Registry EventKind σ (Observer.Listener Event σ)) :
    List Event → σ → List Observer.Report
  | [], _ => []
  | event :: rest, outside =>
    let told : Observer.Report × σ := observers.notify event.kind event outside
    told.1 :: dispatchReports observers rest told.2

/-- The failures of some dispatches are those of their reports, added up. Each
dispatch finds the world outside as the one before has left it. -/
theorem dispatch_failed {σ : Type}
    (observers : Observer.Registry EventKind σ (Observer.Listener Event σ)) (events : List Event)
    (outside : σ) :
    (dispatch observers events outside).1 =
      ((dispatchReports observers events outside).map Observer.Report.failed).sum := by
  induction events generalizing outside with
  | nil => rfl
  | cons event rest inductionHypothesis =>
    simp only [dispatch, dispatchReports, List.map_cons, List.sum_cons, inductionHypothesis]

namespace Simulator

variable {σ : Type}

/-- The report that a call returns, if it is a step and not refused. -/
def reported (state : Simulator σ × σ) : Call σ → List TickReport
  | @Call.step _ ρ _ source =>
    (Session.step.on (⟨state.1, source, state.2⟩ : Session σ ρ)).1.toOption.toList
  | _ => []

/-- The transitions that a call returns: those of a step or of an override. -/
def returned (state : Simulator σ × σ) : Call σ → List Transition
  | @Call.step _ _ _ source =>
    (reported state (.step source)).flatMap TickReport.transitions
  | .setValue name value =>
    ((Session.setValue name value).on (⟨state.1, (), state.2⟩ : Session σ Unit)).1.toOption.getD []
  | _ => []

/-- The events that a call announces. -/
def told (state : Simulator σ × σ) : Call σ → List Event
  | @Call.step _ _ _ source => (reported state (.step source)).flatMap TickReport.events
  | .setValue name value => (returned state (.setValue name value)).map .threshold
  | .raiseAlert name message severity =>
    [.alert ⟨name, message, severity, some state.1.store.ticks⟩]
  | _ => []

section ClosedForms

variable {ρ : Type} [Source ρ] {state : Simulator σ × σ}

/-- A step that finds all its inputs reports and does all of its work, so its
effect and its answer can be computed from the closed form. -/
theorem step_of_checked (indexed : state.1.store.Indexed) (checked : state.1.checkInputs = .ok ())
    (source : ρ) :
    let done := Session.stepped ⟨state.1, source, state.2⟩
    perform state (.step source) = (done.2.simulator, done.2.outside) ∧
      reported state (.step source) = [done.1] := by
  have whole := Session.step_on ⟨state.1, source, state.2⟩ indexed
  rw [checked] at whole
  simp [perform, left, reported, whole, Except.toOption]

/-- A step that misses an input does nothing, and in particular draws nothing
from its source. -/
theorem step_of_unchecked (indexed : state.1.store.Indexed) {fault : Fault}
    (unchecked : state.1.checkInputs = .error fault) (source : ρ) :
    perform state (.step source) = state ∧ reported state (.step source) = [] := by
  have whole := Session.step_on ⟨state.1, source, state.2⟩ indexed
  rw [unchecked] at whole
  simp [perform, left, reported, whole, Except.toOption]

/-- An override does nothing, or all of its work on the store that it has
written. It has three ways to be refused, and all of them leave everything as it
was. -/
theorem setValue_cases (indexed : state.1.store.Indexed) (name : String) (value : Float) :
    (perform state (.setValue name value) = state ∧ returned state (.setValue name value) = []) ∨
      ∃ stored store, state.1.checkInputs = .ok () ∧
        state.1.store.setValue name value = .ok (stored, store) ∧
        let done := Session.overridden (⟨state.1, (), state.2⟩ : Session σ Unit) store
        perform state (.setValue name value) = (done.2.simulator, done.2.outside) ∧
          returned state (.setValue name value) = done.1 := by
  have whole := Session.setValue_on (⟨state.1, (), state.2⟩ : Session σ Unit) indexed name value
  cases checked : state.1.checkInputs with
  | error fault =>
    rw [checked] at whole
    exact .inl (by simp [perform, left, returned, whole, Except.toOption])
  | ok =>
    rw [checked] at whole
    cases written : state.1.store.setValue name value with
    | error fault =>
      rw [written] at whole
      exact .inl (by simp [perform, left, returned, whole, Except.toOption])
    | ok result =>
      rw [written] at whole
      refine .inr ⟨result.1, result.2, rfl, rfl, ?_⟩
      simp [perform, left, returned, whole, Except.toOption]

/-- Raising an alert announces it with the present tick and keeps it behind
those raised before, which may have the same name. -/
theorem perform_raiseAlert (name message : String) (severity : Severity) :
    perform state (.raiseAlert name message severity) =
      let alert : Alert := ⟨name, message, severity, some state.1.store.ticks⟩
      let told := dispatch state.1.observers [.alert alert] state.2
      ({ state.1 with
          alerts := state.1.alerts ++ [alert]
          listenerFailures := state.1.listenerFailures + told.1 }, told.2) := by
  simp only [perform, left, Session.raiseAlert_on]

/-- Clearing an alert tells nobody, whether or not it finds one. -/
theorem observers_clearAlert (simulator : Simulator σ) (name : String) :
    (standing simulator (simulator.clearAlert name)).observers = simulator.observers ∧
      (standing simulator (simulator.clearAlert name)).listenerFailures =
        simulator.listenerFailures := by
  unfold clearAlert
  split <;> exact ⟨rfl, rfl⟩

end ClosedForms

/-- A call that goes through the simulator adds to the failures, and does to the
world outside, what the dispatches of its events do. -/
theorem dispatched_perform {state : Simulator σ × σ} (indexed : state.1.store.Indexed)
    {call : Call σ} (indirect : ∀ kind event, call ≠ .notify kind event) :
    (perform state call).1.listenerFailures =
        state.1.listenerFailures + (dispatch state.1.observers (told state call) state.2).1 ∧
      (perform state call).2 = (dispatch state.1.observers (told state call) state.2).2 := by
  cases call with
  | registerChannel spec =>
    refine ⟨?_, rfl⟩
    cases outcome : state.1.store.register spec <;> simp [perform, registerChannel, outcome] <;> rfl
  | registerDerivation name dependsOn compute =>
    simp only [perform, standing_registerDerivation]
    split <;> exact ⟨rfl, rfl⟩
  | registerRule rule =>
    simp only [perform, standing_registerRule]
    split <;> exact ⟨rfl, rfl⟩
  | step source =>
    cases checked : state.1.checkInputs with
    | error fault =>
      obtain ⟨done, silent⟩ := step_of_unchecked indexed checked source
      rw [told, silent, done]
      exact ⟨rfl, rfl⟩
    | ok =>
      obtain ⟨done, spoken⟩ := step_of_checked indexed checked source
      rw [told, spoken, done]
      simp only [List.flatMap_cons, List.flatMap_nil, List.append_nil]
      exact ⟨rfl, rfl⟩
  | setValue name value =>
    rw [told]
    rcases setValue_cases indexed name value with ⟨done, silent⟩ | ⟨_, _, _, _, done, spoken⟩
    · rw [done, silent]
      exact ⟨rfl, rfl⟩
    · rw [done, spoken]
      exact ⟨rfl, rfl⟩
  | raiseAlert name message severity =>
    rw [perform_raiseAlert]
    exact ⟨rfl, rfl⟩
  | clearAlert name => exact ⟨(observers_clearAlert state.1 name).2, rfl⟩
  | engine _ | subscribe _ _ | unsubscribe _ | setHook _ => exact ⟨rfl, rfl⟩
  | notify kind event => exact absurd rfl (indirect kind event)

/-- Only calls on the registry change who listens. Everything else goes through
the registry and leaves it as it finds it. -/
theorem observers_perform {state : Simulator σ × σ} (indexed : state.1.store.Indexed)
    (call : Call σ) :
    (perform state call).1.observers =
      match call with
      | .subscribe kind listener => (state.1.observers.subscribe kind listener).2
      | .unsubscribe handle => (state.1.observers.unsubscribe handle).2
      | .setHook hook => state.1.observers.setHook hook
      | _ => state.1.observers := by
  cases call with
  | registerChannel spec =>
    cases outcome : state.1.store.register spec <;> simp [perform, registerChannel, outcome]
  | registerDerivation name dependsOn compute =>
    simp only [perform, standing_registerDerivation]
    split <;> rfl
  | registerRule rule =>
    simp only [perform, standing_registerRule]
    split <;> rfl
  | step source =>
    cases checked : state.1.checkInputs with
    | error fault => rw [(step_of_unchecked indexed checked source).1]
    | ok => rw [(step_of_checked indexed checked source).1]; rfl
  | setValue name value =>
    rcases setValue_cases indexed name value with ⟨done, _⟩ | ⟨_, _, _, _, done, _⟩
    · rw [done]
    · rw [done]; rfl
  | raiseAlert name message severity => rw [perform_raiseAlert]
  | clearAlert name => exact (observers_clearAlert state.1 name).1
  | engine _ | subscribe _ _ | unsubscribe _ | setHook _ | notify _ _ => rfl

end Simulator

end Telemetry
