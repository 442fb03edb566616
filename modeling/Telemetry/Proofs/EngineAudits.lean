import Telemetry.Proofs.Announcements
import Telemetry.Proofs.EngineLedger

/-!
# What a simulator announces adds up to what its engine holds

A step announces the metrics and the transitions that its engine has handed out,
an override the transitions, and every other call neither. So books kept from
the announcements alone agree with the engine after every call, as long as
nobody derives, watches or resets on the engine itself. How often a derivation
was evaluated is the number of steps that have reported since its name was
registered.
-/
namespace Telemetry

/-- What was told agrees with what an engine holds. -/
structure Engine.Audited (events : List Event) (age : String → Nat) (engine : Engine) : Prop where
  balanced : Balanced (events.flatMap Event.moved) engine.watches
  sampled : Sampled (events.flatMap Event.undefined) age engine.derivations

namespace Engine

variable {events : List Event} {age : String → Nat} {engine : Engine}

/-- An engine that holds nothing agrees with books in which nothing stands. -/
theorem audited_start : Audited [] (fun _ => 0) {} := ⟨balanced_nil, sampled_nil⟩

/-- Registering a rule keeps the books, for a new rule is inactive and has no
lines. -/
theorem audited_registerRule (audited : engine.Audited events age) (rule : Rule) :
    (engine.perform (.registerRule rule)).Audited events age := by
  cases outcome : engine.registerRule rule with
  | error fault =>
    simp only [perform, outcome]
    exact audited
  | ok after =>
    obtain ⟨_, fresh, rfl⟩ := registerRule_eq_ok_iff.mp outcome
    simp only [perform, outcome]
    exact ⟨balanced_register audited.balanced fresh, audited.sampled⟩

/-- Registering a derivation keeps the books, for a new derivation has yielded
nothing and has no lines. -/
theorem audited_registerDerivation (audited : engine.Audited events age) (name : String)
    (dependsOn : List String) (compute : Context → Value) :
    (engine.perform (.registerDerivation name dependsOn compute)).Audited events age := by
  cases outcome : engine.registerDerivation name dependsOn compute with
  | error fault =>
    simp only [perform, outcome]
    exact audited
  | ok after =>
    obtain ⟨_, fresh, rfl⟩ := registerDerivation_eq_ok_iff.mp outcome
    simp only [perform, outcome]
    refine ⟨audited.balanced, sampled_register audited.sampled ?_ rfl⟩
    intro member
    obtain ⟨derivation, within, same⟩ := List.mem_map.mp member
    exact fresh derivation within same

/-- Events that carry neither transitions nor metrics move nothing, and may be
added to the books at any time. -/
theorem Audited.quiet (audited : engine.Audited events age) {new : List Event}
    (unmoved : new.flatMap Event.moved = []) (defined : new.flatMap Event.undefined = []) :
    engine.Audited (events ++ new) age := by
  constructor
  · rw [List.flatMap_append, unmoved, List.append_nil]
    exact audited.balanced
  · rw [List.flatMap_append, defined, List.append_nil]
    exact audited.sampled

end Engine

/-- Transitions carry their labels and nothing else that is counted: no metrics,
no severities and no readings. -/
theorem flatMap_thresholds (transitions : List Transition) :
    (transitions.map Event.threshold).flatMap Event.moved = transitions.map Transition.label ∧
      (transitions.map Event.threshold).flatMap Event.undefined = [] ∧
      (transitions.map Event.threshold).flatMap Event.severities = [] ∧
      (transitions.map Event.threshold).flatMap Event.snapshots = [] := by
  induction transitions with
  | nil => exact ⟨rfl, rfl, rfl, rfl⟩
  | cons transition rest inductionHypothesis =>
    obtain ⟨moved, undefined, severities, snapshots⟩ := inductionHypothesis
    simp only [List.map_cons, List.flatMap_cons, moved, undefined, severities, snapshots]
    exact ⟨rfl, rfl, rfl, rfl⟩

namespace Simulator

variable {σ : Type} {state : Simulator σ × σ}

/-- The severity of the alert that a call raises. -/
def Call.raised : Call σ → List Severity
  | .raiseAlert _ _ severity => [severity]
  | _ => []

/-- What a call announces is what it returns, by kinds of events. Each kind
carries one of the things that are counted, so they can be read off one by
one. -/
theorem flatMap_told (state : Simulator σ × σ) (call : Call σ) :
    (told state call).flatMap Event.moved = (returned state call).map Transition.label ∧
      (told state call).flatMap Event.severities = call.raised ∧
      (told state call).flatMap Event.snapshots =
        (reported state call).map TickReport.snapshot := by
  cases call with
  | step source =>
    rw [told, returned]
    induction reported state (.step source) with
    | nil => exact ⟨rfl, rfl, rfl⟩
    | cons report rest inductionHypothesis =>
      obtain ⟨restMoved, restSeverities, restSnapshots⟩ := inductionHypothesis
      obtain ⟨moved, _, severities, snapshots⟩ := flatMap_thresholds report.transitions
      simp only [List.flatMap_cons, List.flatMap_append, List.map_append, List.map_cons,
        TickReport.events, moved, severities, snapshots, restMoved, restSeverities, restSnapshots]
      exact ⟨rfl, rfl, rfl⟩
  | setValue name value =>
    obtain ⟨moved, _, severities, snapshots⟩ :=
      flatMap_thresholds (returned state (.setValue name value))
    exact ⟨moved, severities, snapshots⟩
  | registerChannel _ | registerDerivation _ _ _ | registerRule _ | engine _ | raiseAlert _ _ _
  | clearAlert _ | subscribe _ _ | unsubscribe _ | setHook _ | notify _ _ => exact ⟨rfl, rfl, rfl⟩

/-- The clock counts the steps that report. A step that is refused reports
nothing and leaves the clock, and no other call moves it. -/
theorem ticks_perform (indexed : state.1.store.Indexed) (call : Call σ) :
    (perform state call).1.store.ticks = state.1.store.ticks + (reported state call).length := by
  cases call with
  | registerChannel spec =>
    cases outcome : state.1.store.register spec with
    | error fault => simp [perform, registerChannel, outcome, reported]
    | ok after =>
      obtain ⟨_, _, rfl⟩ := Store.register_eq_ok_iff.mp outcome
      simp [perform, registerChannel, outcome, reported]
  | registerDerivation name dependsOn compute =>
    simp only [perform, standing_registerDerivation]
    split <;> rfl
  | registerRule rule =>
    simp only [perform, standing_registerRule]
    split <;> rfl
  | step source =>
    cases checked : state.1.checkInputs with
    | error fault =>
      obtain ⟨done, silent⟩ := step_of_unchecked indexed checked source
      rw [done, silent]
      rfl
    | ok =>
      obtain ⟨done, spoken⟩ := step_of_checked indexed checked source
      rw [done, spoken]
      rfl
  | setValue name value =>
    rcases setValue_cases indexed name value with ⟨done, _⟩ | ⟨stored, store, _, written, done, _⟩
    · rw [done]
      rfl
    · obtain ⟨_, _, _, _, _, _, rfl⟩ := Store.setValue_eq_ok_iff.mp written
      rw [done]
      rfl
  | raiseAlert name message severity =>
    rw [perform_raiseAlert]
    rfl
  | clearAlert name =>
    simp only [perform, clearAlert]
    split <;> rfl
  | engine _ | subscribe _ _ | unsubscribe _ | setHook _ | notify _ _ => rfl

/-- The reports of the steps that are made while a derivation of some name is
registered. -/
def reportedWith (name : String) (state : Simulator σ × σ) (call : Call σ) : List TickReport :=
  if name ∈ state.1.engine.derivations.map Derivation.name then reported state call else []

section Audits

variable {events : List Event} {age : String → Nat}

/-- Registering a channel is no business of the engine. -/
theorem engine_registerChannel (state : Simulator σ × σ) (spec : ChannelSpec) :
    (perform state (.registerChannel spec)).1.engine = state.1.engine := by
  cases outcome : state.1.store.register spec <;> simp [perform, registerChannel, outcome]

/-- Neither is clearing an alert. -/
theorem engine_clearAlert (state : Simulator σ × σ) (name : String) :
    (perform state (.clearAlert name)).1.engine = state.1.engine := by
  simp only [perform, clearAlert]
  split <;> rfl

/-- A derivation registered on the simulator keeps the books, because it is
registered on the engine or refused. -/
theorem audited_registerDerivation (audited : state.1.engine.Audited events age) (name : String)
    (dependsOn : List String) (compute : Context → Value) :
    (perform state (.registerDerivation name dependsOn compute)).1.engine.Audited events age := by
  simp only [perform, standing_registerDerivation]
  split
  · exact Engine.audited_registerDerivation audited name dependsOn compute
  · exact audited

/-- So does a rule registered on the simulator. -/
theorem audited_registerRule (audited : state.1.engine.Audited events age) (rule : Rule) :
    (perform state (.registerRule rule)).1.engine.Audited events age := by
  simp only [perform, standing_registerRule]
  split
  · exact Engine.audited_registerRule audited rule
  · exact audited

/-- A step notes what it does to the flags and the samples. It evaluates every
derivation once and compares every rule once, and announces the outcome of
both. -/
theorem audited_step {ρ : Type} [Source ρ] (indexed : state.1.store.Indexed)
    (audited : state.1.engine.Audited events age) (source : ρ) :
    (perform state (.step source)).1.engine.Audited (events ++ told state (.step source))
      fun name => age name + (reportedWith name state (.step source)).length := by
  cases checked : state.1.checkInputs with
  | error fault =>
    obtain ⟨done, silent⟩ := step_of_unchecked indexed checked source
    simp only [done, told, reportedWith, silent, List.flatMap_nil, List.append_nil, ite_self,
      List.length_nil, Nat.add_zero]
    exact audited
  | ok =>
    obtain ⟨done, spoken⟩ := step_of_checked indexed checked source
    let report := (Session.stepped ⟨state.1, source, state.2⟩).1
    obtain ⟨moved, undefined, _, _⟩ := flatMap_thresholds report.transitions
    have announced : told state (.step source) = report.events := by
      rw [told, spoken, List.flatMap_singleton]
    have counted : ∀ name, (reportedWith name state (.step source)).length =
        if name ∈ state.1.engine.derivations.map Derivation.name then 1 else 0 := by
      intro name
      rw [reportedWith, spoken]
      split <;> rfl
    simp only [announced, counted, done]
    constructor
    · have turned := Engine.balanced_observe audited.balanced report.snapshot
      rw [List.flatMap_append, TickReport.events, List.flatMap_cons, List.flatMap_cons, moved]
      exact turned
    · have evaluated := Engine.sampled_remember audited.sampled report.snapshot
        report.snapshot.tick
      rw [List.flatMap_append, TickReport.events, List.flatMap_cons, List.flatMap_cons, undefined,
        List.append_nil]
      exact evaluated

/-- An override notes what it does to the flags. It evaluates no derivation, so
that no name grows older by it. -/
theorem audited_setValue (indexed : state.1.store.Indexed)
    (audited : state.1.engine.Audited events age) (name : String) (value : Float) :
    (perform state (.setValue name value)).1.engine.Audited
      (events ++ told state (.setValue name value)) age := by
  rw [told]
  rcases setValue_cases indexed name value with ⟨done, silent⟩ | ⟨_, store, _, _, done, spoken⟩
  · rw [done, silent]
    exact audited.quiet rfl rfl
  · rw [done, spoken]
    obtain ⟨moved, undefined, _, _⟩ := flatMap_thresholds
      (Session.overridden (⟨state.1, (), state.2⟩ : Session σ Unit) store).1
    constructor
    · have turned := Engine.balanced_observe audited.balanced store.snapshot
      rw [List.flatMap_append, moved]
      exact turned
    · rw [List.flatMap_append, undefined, List.append_nil]
      exact audited.sampled

end Audits

end Simulator

end Telemetry
