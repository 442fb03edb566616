import Telemetry.Proofs.Announcements

/-!
# Listeners cannot influence the simulation

Take from a simulator everybody who listens to it. What is left, its store, its
engine and its alerts, goes through a run as if nobody had ever listened: each
call has the same effect on it and the same answer, apart from the failed
listener calls that a report counts. Calls that only concern who listens have
neither.

Two runs that ask the same of the simulation therefore go the same way, however
their listeners differ, in number, in the moments at which they come and go, in
what they act on, and in how their calls end. A step is asked for by the draws
of its source, so the two runs may even take equal draws from sources of
different types, and leave them with equal draws to come.
-/
namespace Telemetry

/-- Draws by their position, as a source of its own. -/
structure Draws where
  nth : Nat → Float

instance : Source Draws :=
  ⟨fun draws => (draws.nth 0, ⟨fun position => draws.nth (position + 1)⟩)⟩

section Sources

variable {ρ : Type} [Source ρ]

/-- The draw that a source yields after so many others. -/
def Source.nth : Nat → ρ → Float
  | 0, source => (Source.draw source).1
  | later + 1, source => Source.nth later (Source.draw source).2

/-- All that a source will yield. -/
def Draws.of (source : ρ) : Draws := ⟨fun position => Source.nth position source⟩

/-- Draws that are taken as a source yield themselves, so that listing them
again changes nothing. -/
theorem Draws.of_draws (draws : Draws) : Draws.of draws = draws := by
  have same : ∀ (position : Nat) (draws : Draws),
      Source.nth position draws = draws.nth position := by
    intro position
    induction position with
    | zero => exact fun _ => rfl
    | succ later inductionHypothesis => exact fun draws => inductionHypothesis _
  cases draws
  exact congrArg Draws.mk (funext fun position => same position _)

/-- A walk depends on the draws of its source only, and leaves those it has not
taken. -/
theorem walk_draws (channels : List Channel) (source : ρ) :
    Store.walk channels (Draws.of source) =
      ((Store.walk channels source).1, Draws.of (Store.walk channels source).2) := by
  induction channels generalizing source with
  | nil => rfl
  | cons channel rest inductionHypothesis =>
    have later := inductionHypothesis (Source.draw source).2
    have shifted : (Source.draw (Draws.of source)).2 = Draws.of (Source.draw source).2 := rfl
    simp only [Store.walk, shifted, later]
    rfl

/-- So does a tick, which walks all channels once and counts. -/
theorem tick_draws (store : Store) (source : ρ) :
    store.tick (Draws.of source) = ((store.tick source).1, Draws.of (store.tick source).2) := by
  simp only [Store.tick, walk_draws]

end Sources

/-- A report without its count of failed listener calls. -/
def TickReport.uncounted (report : TickReport) : TickReport := { report with listenerFailures := 0 }

/-- What a call answers. A step also leaves draws to come. -/
inductive Answer where
  | done (outcome : Except Fault Unit)
  | stepped (outcome : Except Fault TickReport) (rest : Draws)
  | derived (outcome : Except Fault Metrics)
  | changed (outcome : Except Fault (List Transition))
  | raised (outcome : Except Fault Alert)

/-- What a call on the engine answers. -/
def Engine.answer (engine : Engine) : Call → Answer
  | .registerDerivation name dependsOn compute =>
    .done ((engine.registerDerivation name dependsOn compute).map fun _ => ())
  | .registerRule rule => .done ((engine.registerRule rule).map fun _ => ())
  | .recompute snapshot => .derived ((engine.recompute snapshot).map Prod.fst)
  | .watch snapshot => .changed ((engine.watch snapshot).map Prod.fst)
  | .resetDerivation name => .done ((engine.resetDerivation name).map fun _ => ())

namespace Simulator

variable {σ τ : Type}

/-- What a call answers, up to the count of failed listener calls. A call that
only concerns who listens has no answer. -/
def answer (state : Simulator σ × σ) : Call σ → List Answer
  | .registerChannel spec => [.done ((state.1.registerChannel spec).map fun _ => ())]
  | .registerDerivation name dependsOn compute =>
    [.done ((state.1.registerDerivation name dependsOn compute).map fun _ => ())]
  | .registerRule rule => [.done ((state.1.registerRule rule).map fun _ => ())]
  | .engine call => [state.1.engine.answer call]
  | @Call.step _ ρ _ source =>
    let (outcome, after) := Session.step.on (⟨state.1, source, state.2⟩ : Session σ ρ)
    [.stepped (outcome.map TickReport.uncounted) (.of after.source)]
  | .setValue name value =>
    [.changed ((Session.setValue name value).on (⟨state.1, (), state.2⟩ : Session σ Unit)).1]
  | .raiseAlert name message severity =>
    [.raised ((Session.raiseAlert name message severity).on
      (⟨state.1, (), state.2⟩ : Session σ Unit)).1]
  | .clearAlert name => [.done ((state.1.clearAlert name).map fun _ => ())]
  | .subscribe _ _ | .unsubscribe _ | .setHook _ | .notify _ _ => []

/-- The simulator with nobody listening. -/
def muted (simulator : Simulator σ) : Simulator Unit :=
  { store := simulator.store, engine := simulator.engine, alerts := simulator.alerts }

/-- What a call asks of the simulation, if it does not only concern who listens.
A step is asked for by its draws. -/
def Call.muted : Call σ → Option (Call Unit)
  | .registerChannel spec => some (.registerChannel spec)
  | .registerDerivation name dependsOn compute =>
    some (.registerDerivation name dependsOn compute)
  | .registerRule rule => some (.registerRule rule)
  | .engine call => some (.engine call)
  | @Call.step _ _ _ source => some (.step (Draws.of source))
  | .setValue name value => some (.setValue name value)
  | .raiseAlert name message severity => some (.raiseAlert name message severity)
  | .clearAlert name => some (.clearAlert name)
  | .subscribe _ _ | .unsubscribe _ | .setHook _ | .notify _ _ => none

section Registrations

variable (simulator : Simulator σ)

/-- Whether an outcome stands is decided before anybody is muted. -/
theorem muted_standing (outcome : Except Fault (Simulator σ)) :
    (standing simulator outcome).muted = standing simulator.muted (outcome.map muted) := by
  cases outcome <;> rfl

/-- Nobody who listens has a part in registering a channel. -/
theorem registerChannel_muted (spec : ChannelSpec) :
    simulator.muted.registerChannel spec = (simulator.registerChannel spec).map muted := by
  cases outcome : simulator.store.register spec <;>
    simp only [registerChannel, muted, outcome] <;> rfl

/-- Nor has anybody a part in registering a derivation. -/
theorem registerDerivation_muted (name : String) (dependsOn : List String)
    (compute : Context → Value) :
    simulator.muted.registerDerivation name dependsOn compute =
      (simulator.registerDerivation name dependsOn compute).map muted := by
  simp only [registerDerivation, muted]
  cases dependsOn.find? fun channel => !simulator.store.contains channel with
  | some channel => rfl
  | none => cases simulator.engine.registerDerivation name dependsOn compute <;> rfl

/-- Nor in registering a rule. -/
theorem registerRule_muted (rule : Rule) :
    simulator.muted.registerRule rule = (simulator.registerRule rule).map muted := by
  by_cases known : simulator.store.contains rule.channel = true
  · simp only [registerRule, muted, known, ↓reduceIte]
    cases simulator.engine.registerRule rule <;> rfl
  · simp only [registerRule, muted, known]
    rfl

/-- Nor in clearing an alert. -/
theorem clearAlert_muted (name : String) :
    simulator.muted.clearAlert name = (simulator.clearAlert name).map muted := by
  by_cases raised : (simulator.alerts.any fun alert => alert.name = name) = true
  · simp only [clearAlert, muted, raised, ↓reduceIte]
    rfl
  · simp only [clearAlert, muted, raised]
    rfl

/-- What has no part in an outcome cannot be told from whether there was one. -/
theorem map_muted (outcome : Except Fault (Simulator σ)) :
    ((outcome.map muted).map fun _ => ()) = outcome.map fun _ => () := by
  cases outcome <;> rfl

end Registrations

/-- A call does to the simulation what it does with nobody listening; it answers
and announces the same. Its dispatches come last, and nothing that they leave is
looked at again. -/
theorem perform_muted {state : Simulator σ × σ} (indexed : state.1.store.Indexed) {call : Call σ}
    {asked : Call Unit} (request : call.muted = some asked) :
    (perform state call).1.muted = (perform (state.1.muted, ()) asked).1.muted ∧
      answer state call = answer (state.1.muted, ()) asked ∧
      told state call = told (state.1.muted, ()) asked := by
  cases call with
  | registerChannel spec =>
    cases request
    simp only [perform, answer, registerChannel_muted, map_muted, ← muted_standing]
    exact ⟨rfl, trivial, rfl⟩
  | registerDerivation name dependsOn compute =>
    cases request
    simp only [perform, answer, registerDerivation_muted, map_muted, ← muted_standing]
    exact ⟨rfl, trivial, rfl⟩
  | registerRule rule =>
    cases request
    simp only [perform, answer, registerRule_muted, map_muted, ← muted_standing]
    exact ⟨rfl, trivial, rfl⟩
  | engine made =>
    cases request
    exact ⟨rfl, rfl, rfl⟩
  | step source =>
    cases request
    have heard := Session.step_on ⟨state.1, source, state.2⟩ indexed
    have unheard := Session.step_on ⟨state.1.muted, Draws.of source, ()⟩ indexed
    have same : state.1.muted.checkInputs = state.1.checkInputs := rfl
    simp only [perform, left, answer, told, reported, heard, unheard, same]
    cases state.1.checkInputs with
    | error fault =>
      refine ⟨rfl, ?_, rfl⟩
      rw [Draws.of_draws]
    | ok =>
      simp only [Session.stepped, muted, tick_draws, Draws.of_draws]
      exact ⟨trivial, rfl, rfl⟩
  | setValue name value =>
    cases request
    have heard := Session.setValue_on (⟨state.1, (), state.2⟩ : Session σ Unit) indexed name value
    have unheard :=
      Session.setValue_on (⟨state.1.muted, (), ()⟩ : Session Unit Unit) indexed name value
    have same : state.1.muted.checkInputs = state.1.checkInputs := rfl
    have store : state.1.muted.store = state.1.store := rfl
    simp only [perform, left, answer, told, returned, heard, unheard, same, store]
    cases state.1.checkInputs with
    | error fault => exact ⟨rfl, rfl, rfl⟩
    | ok => cases state.1.store.setValue name value <;> exact ⟨rfl, rfl, rfl⟩
  | raiseAlert name message severity =>
    cases request
    simp only [perform_raiseAlert, answer, Session.raiseAlert_on]
    exact ⟨rfl, rfl, rfl⟩
  | clearAlert name =>
    cases request
    simp only [perform, answer, clearAlert_muted, map_muted, ← muted_standing]
    exact ⟨rfl, trivial, rfl⟩
  | subscribe _ _ | unsubscribe _ | setHook _ | notify _ _ => cases request

/-- A call that only concerns who listens does nothing to the simulation, and
has neither an answer nor an announcement. -/
theorem perform_unasked (state : Simulator σ × σ) {call : Call σ} (request : call.muted = none) :
    (perform state call).1.muted = state.1.muted ∧ answer state call = [] ∧
      told state call = [] := by
  cases call with
  | subscribe _ _ | unsubscribe _ | setHook _ | notify _ _ => exact ⟨rfl, rfl, rfl⟩
  | registerChannel _ | registerDerivation _ _ _ | registerRule _ | engine _ | step _
  | setValue _ _ | raiseAlert _ _ _ | clearAlert _ => exact nomatch request

/-- Calls that ask the same, made where the simulation is the same, have the
same effect on it and announce the same. Both are compared with the call that
nobody listens to. -/
theorem perform_alike {state : Simulator σ × σ} {other : Simulator τ × τ}
    (indexed : state.1.store.Indexed) (same : state.1.muted = other.1.muted) {call : Call σ}
    {counterpart : Call τ} (alike : call.muted = counterpart.muted) :
    (perform state call).1.muted = (perform other counterpart).1.muted ∧
      told state call = told other counterpart := by
  have store : state.1.store = other.1.store := congrArg Simulator.store same
  cases request : call.muted with
  | none =>
    obtain ⟨kept, _, silent⟩ := perform_unasked state request
    obtain ⟨otherKept, _, otherSilent⟩ := perform_unasked other (alike ▸ request)
    exact ⟨by rw [kept, otherKept, same], by rw [silent, otherSilent]⟩
  | some asked =>
    obtain ⟨done, _, spoken⟩ := perform_muted indexed request
    obtain ⟨otherDone, _, otherSpoken⟩ := perform_muted (store ▸ indexed) (alike ▸ request)
    exact ⟨by rw [done, otherDone, same], by rw [spoken, otherSpoken, same]⟩

/-- The simulation after a request, with nobody listening. -/
def respond (simulator : Simulator Unit) (asked : Call Unit) : Simulator Unit :=
  (perform (simulator, ()) asked).1.muted

/-- A run does to the simulation what its requests do with nobody listening, and
answers what they answer. Calls that ask nothing drop out of both sides. -/
theorem run_muted {state : Simulator σ × σ} (reachable : state.1.store.Reachable)
    (calls : List (Call σ)) :
    (run calls state).1.muted = (calls.filterMap Call.muted).foldl respond state.1.muted ∧
      along perform answer calls state =
        along respond (fun simulator => answer (simulator, ())) (calls.filterMap Call.muted)
          state.1.muted := by
  induction calls generalizing state with
  | nil => exact ⟨rfl, rfl⟩
  | cons call rest inductionHypothesis =>
    obtain ⟨state', answers⟩ := inductionHypothesis (reachable_perform reachable call)
    cases request : call.muted with
    | none =>
      obtain ⟨same, silent, _⟩ := perform_unasked state request
      rw [List.filterMap_cons_none request, along, silent, List.nil_append]
      rw [same] at state' answers
      exact ⟨state', answers⟩
    | some asked =>
      obtain ⟨same, answered, _⟩ := perform_muted reachable.indexed request
      rw [List.filterMap_cons_some request, along, along, answered, List.foldl_cons]
      rw [same] at state' answers
      exact ⟨state', congrArg _ answers⟩

/-- Two runs that ask the same of the simulation, with whatever listeners in
either: every call answers the same, up to the failed listener calls in a
report, and store, engine, alerts and active alerts are the same.

Each run does to the simulation what its requests do with nobody listening, and
the requests of the two are the same. -/
theorem listeners_cannot_influence {calls : List (Call σ)} {others : List (Call τ)}
    (same : calls.filterMap Call.muted = others.filterMap Call.muted) (outside : σ)
    (elsewhere : τ) :
    let first := (run calls ({}, outside)).1
    let second := (run others ({}, elsewhere)).1
    along perform answer calls ({}, outside) = along perform answer others ({}, elsewhere) ∧
      first.store = second.store ∧ first.engine = second.engine ∧
      first.alerts = second.alerts ∧ first.activeAlerts = second.activeAlerts := by
  intro first second
  have start : ∀ {υ : Type} (calls : List (Call υ)) (world : υ),
      (run calls ({}, world)).1.muted = (calls.filterMap Call.muted).foldl respond {} ∧
        along perform answer calls ({}, world) =
          along respond (fun simulator => answer (simulator, ())) (calls.filterMap Call.muted) {} :=
    fun calls world => run_muted ⟨[], rfl⟩ calls
  obtain ⟨firstState, firstAnswers⟩ := start calls outside
  obtain ⟨secondState, secondAnswers⟩ := start others elsewhere
  rw [same] at firstState firstAnswers
  have agree : first.muted = second.muted := firstState.trans secondState.symm
  have store : first.store = second.store := congrArg Simulator.store agree
  have engine : first.engine = second.engine := congrArg Simulator.engine agree
  have alerts : first.alerts = second.alerts := congrArg Simulator.alerts agree
  refine ⟨firstAnswers.trans secondAnswers.symm, store, engine, alerts, ?_⟩
  rw [activeAlerts, activeAlerts, alerts, engine]

/-- A run with a crashing listener that leaves again, and a run in which nobody
listens. -/
theorem listeners_cannot_influence_crash :
    let oven : ChannelSpec := ⟨"oven", 20, 0, 300, 5⟩
    let crash : Observer.Listener Event Nat := fun _ calls =>
      (.crashed (some "out of order"), calls + 1)
    let heard : List (Call Nat) :=
      [.subscribe .tick crash, .registerChannel oven, .step (⟨1⟩ : Fixed), .unsubscribe ⟨.tick, 1⟩,
        .setValue "oven" 250]
    let unheard : List (Call Unit) :=
      [.registerChannel oven, .step (⟨1⟩ : Fixed), .setValue "oven" 250]
    heard.filterMap Call.muted = unheard.filterMap Call.muted ∧
      along perform answer heard ({}, 0) = along perform answer unheard ({}, ()) ∧
      (run heard ({}, 0)).1.store = (run unheard ({}, ())).1.store := by
  intro oven crash heard unheard
  have same : heard.filterMap Call.muted = unheard.filterMap Call.muted := rfl
  have agree := listeners_cannot_influence same 0 ()
  exact ⟨same, agree.1, agree.2.1⟩

end Simulator

end Telemetry
