import Telemetry.Proofs.EngineRuns
import Telemetry.Proofs.SessionSteps

/-!
# Runs of the simulator

A run is a list of calls made one after another on a fresh simulator, refused
ones included. Calls may go past the simulator: rules, derivations and snapshots
can be given to the engine itself, and listeners to the registry itself. Every
step brings its own source, of any type.

Whatever the calls, the store has only received calls of its own, so it is
reachable as a store and its index agrees with its channels. What a call does to
readings and flags is one of four things, and invariants of the simulator are
proved from these.
-/
namespace Telemetry.Simulator

variable {σ : Type}

/-- A call that a simulator can receive. -/
inductive Call (σ : Type) : Type 1 where
  | registerChannel (spec : ChannelSpec)
  | registerDerivation (name : String) (dependsOn : List String) (compute : Context → Value)
  | registerRule (rule : Rule)
  /-- A call on the engine itself, which skips the check against the store. -/
  | engine (call : Engine.Call)
  | step {ρ : Type} [Source ρ] (source : ρ)
  | setValue (name : String) (value : Float)
  | raiseAlert (name message : String) (severity : Severity)
  | clearAlert (name : String)
  | subscribe (kind : EventKind) (listener : Observer.Listener Event σ)
  | unsubscribe (handle : Observer.Handle EventKind)
  | setHook (hook : EventKind → Fault → σ → σ)
  /-- A dispatch through the registry itself. -/
  | notify (kind : EventKind) (event : Event)

/-- What an attempt leaves of a simulator and of the world outside. -/
def left {ρ α : Type} (attempt : Attempt (Session σ ρ) α) (source : ρ)
    (state : Simulator σ × σ) : Simulator σ × σ :=
  let session := (attempt.on ⟨state.1, source, state.2⟩).2
  (session.simulator, session.outside)

/-- The simulator and the world outside after a call, refused or not. -/
def perform (state : Simulator σ × σ) : Call σ → Simulator σ × σ
  | .registerChannel spec => (standing state.1 (state.1.registerChannel spec), state.2)
  | .registerDerivation name dependsOn compute =>
    (standing state.1 (state.1.registerDerivation name dependsOn compute), state.2)
  | .registerRule rule => (standing state.1 (state.1.registerRule rule), state.2)
  | .engine call => ({ state.1 with engine := state.1.engine.perform call }, state.2)
  | @Call.step _ _ _ source => left Session.step source state
  | .setValue name value => left (Session.setValue name value) () state
  | .raiseAlert name message severity => left (Session.raiseAlert name message severity) () state
  | .clearAlert name => (standing state.1 (state.1.clearAlert name), state.2)
  | .subscribe kind listener =>
    ({ state.1 with observers := (state.1.observers.subscribe kind listener).2 }, state.2)
  | .unsubscribe handle =>
    ({ state.1 with observers := (state.1.observers.unsubscribe handle).2 }, state.2)
  | .setHook hook => ({ state.1 with observers := state.1.observers.setHook hook }, state.2)
  | .notify kind event => left (Session.notify kind event) () state

/-- The simulator and the world outside after calls made one after another. -/
def run (calls : List (Call σ)) (state : Simulator σ × σ) : Simulator σ × σ :=
  calls.foldl perform state

/-- Whether a call compares the rules with new readings: a step or an override
that is not refused. -/
def settles (state : Simulator σ × σ) : Call σ → Bool
  | @Call.step _ ρ _ source =>
    (Session.step.on (⟨state.1, source, state.2⟩ : Session σ ρ)).1.isOk
  | .setValue name value =>
    ((Session.setValue name value).on (⟨state.1, (), state.2⟩ : Session σ Unit)).1.isOk
  | _ => false

/-- A rule registered on the simulator is registered on its engine, or nothing
happens. The simulator adds one check, that the store has the rule's channel. -/
theorem standing_registerRule (simulator : Simulator σ) (rule : Rule) :
    standing simulator (simulator.registerRule rule) =
      if simulator.store.contains rule.channel then
        { simulator with engine := simulator.engine.perform (.registerRule rule) }
      else simulator := by
  unfold registerRule
  split
  · cases outcome : simulator.engine.registerRule rule <;> simp [Engine.perform, outcome]
  · rfl

/-- The same of a derivation, all of whose declared channels have to be in the
store. -/
theorem standing_registerDerivation (simulator : Simulator σ) (name : String)
    (dependsOn : List String) (compute : Context → Value) :
    standing simulator (simulator.registerDerivation name dependsOn compute) =
      if dependsOn.all simulator.store.contains then
        { simulator with
          engine := simulator.engine.perform (.registerDerivation name dependsOn compute) }
      else simulator := by
  unfold registerDerivation
  cases found : dependsOn.find? fun channel => !simulator.store.contains channel with
  | some channel =>
    have missing : dependsOn.all simulator.store.contains = false := by
      have unknown := List.find?_some found
      have member := List.mem_of_find?_eq_some found
      simpa using ⟨channel, member, by simpa using unknown⟩
    simp [missing]
  | none =>
    have known : dependsOn.all simulator.store.contains = true := by
      simpa using found
    cases outcome : simulator.engine.registerDerivation name dependsOn compute <;>
      simp [known, Engine.perform, outcome]

/-- Everything a call can do to the readings, the rules and the alerts of a
simulator. An alert that it adds knows its tick. -/
inductive Effect (state : Simulator σ × σ) (call : Call σ) (after : Simulator σ) : Prop
  | idle (store : after.store = state.1.store) (engine : after.engine = state.1.engine)
      (raised : ∀ alert ∈ after.alerts, alert ∈ state.1.alerts ∨ alert.raisedAt.isSome = true)
      (unsettled : settles state call = false)
  | channel (spec : ChannelSpec) (registered : state.1.store.register spec = .ok after.store)
      (engine : after.engine = state.1.engine) (alerts : after.alerts = state.1.alerts)
      (unsettled : settles state call = false)
  | engine (made : Engine.Call) (store : after.store = state.1.store)
      (engine : after.engine = state.1.engine.perform made)
      (direct : ∀ snapshot, made = .watch snapshot → call = .engine (.watch snapshot))
      (alerts : after.alerts = state.1.alerts) (unsettled : settles state call = false)
  | settled (made : Store.Call) (store : after.store = state.1.store.perform made)
      (names : after.store.names = state.1.store.names)
      (checked : state.1.checkInputs = .ok ())
      (watches : after.engine.watches =
        state.1.engine.watches.map (Watch.observe after.snapshot))
      (alerts : after.alerts = state.1.alerts) (settled : settles state call = true)

/-- A call that leaves the simulator as it was is idle, as every refused call
is. -/
theorem Effect.of_same {state : Simulator σ × σ} {call : Call σ} {after : Simulator σ}
    (same : after = state.1) (unsettled : settles state call = false) :
    Effect state call after := by
  subst same
  exact .idle rfl rfl (fun _ => .inl) unsettled

/-- A step has all its effect or none. What it finds missing it finds before it
moves a reading, and afterwards nothing can fail. -/
theorem effect_step {ρ : Type} [Source ρ] {state : Simulator σ × σ}
    (indexed : state.1.store.Indexed) (source : ρ) :
    Effect state (.step source) (perform state (.step source)).1 := by
  have whole := Session.step_on ⟨state.1, source, state.2⟩ indexed
  cases checked : state.1.checkInputs with
  | error fault =>
    rw [checked] at whole
    apply Effect.of_same <;> simp [perform, left, settles, whole]
  | ok =>
    rw [checked] at whole
    apply Effect.settled (.tick source) <;>
      simp [perform, left, settles, whole, checked, Session.stepped, Store.perform, snapshot]

/-- So does an override: the inputs are checked and the value is written before
the rules are compared, and the comparison cannot fail then. -/
theorem effect_setValue {state : Simulator σ × σ} (indexed : state.1.store.Indexed)
    (name : String) (value : Float) :
    Effect state (.setValue name value) (perform state (.setValue name value)).1 := by
  have whole := Session.setValue_on ⟨state.1, (), state.2⟩ indexed name value
  cases checked : state.1.checkInputs with
  | error fault =>
    rw [checked] at whole
    apply Effect.of_same <;> simp [perform, left, settles, whole]
  | ok =>
    rw [checked] at whole
    cases written : state.1.store.setValue name value with
    | error fault =>
      rw [written] at whole
      apply Effect.of_same <;> simp [perform, left, settles, whole]
    | ok result =>
      rw [written] at whole
      apply Effect.settled (.setValue name value) <;>
        simp [perform, left, settles, whole, checked, Session.overridden, Store.perform, snapshot,
          written, Except.map, Store.names_setValue written]

/-- Raising an alert adds that alert, which knows its tick, and leaves readings
and rules. -/
theorem effect_raiseAlert (state : Simulator σ × σ) (name message : String)
    (severity : Severity) :
    Effect state (.raiseAlert name message severity)
      (perform state (.raiseAlert name message severity)).1 := by
  apply Effect.idle
  case raised =>
    intro alert member
    simp only [perform, left, Session.raiseAlert_on, List.mem_append, List.mem_singleton] at member
    rcases member with former | rfl
    · exact .inl former
    · exact .inr rfl
  all_goals simp [perform, left, settles, Session.raiseAlert_on]

/-- Clearing an alert adds none and leaves readings and rules, whether or not it
finds one. -/
theorem effect_clearAlert (state : Simulator σ × σ) (name : String) :
    Effect state (.clearAlert name) (perform state (.clearAlert name)).1 := by
  simp only [perform, clearAlert]
  split
  · exact .idle rfl rfl (fun _ member => .inl (List.mem_of_mem_filter member)) rfl
  · exact .of_same rfl rfl

/-- Every call has one of the four effects. Invariants of the simulator are
proved by going through these and not through the calls. -/
theorem effect_perform {state : Simulator σ × σ} (indexed : state.1.store.Indexed)
    (call : Call σ) : Effect state call (perform state call).1 := by
  cases call with
  | registerChannel spec =>
    cases outcome : state.1.store.register spec with
    | error fault => apply Effect.of_same <;> simp [perform, settles, registerChannel, outcome]
    | ok store => apply Effect.channel spec <;> simp [perform, settles, registerChannel, outcome]
  | registerDerivation name dependsOn compute =>
    simp only [perform, standing_registerDerivation]
    split
    · exact .engine (.registerDerivation name dependsOn compute) rfl rfl (fun _ => nofun) rfl rfl
    · exact .of_same rfl rfl
  | registerRule rule =>
    simp only [perform, standing_registerRule]
    split
    · exact .engine (.registerRule rule) rfl rfl (fun _ => nofun) rfl rfl
    · exact .of_same rfl rfl
  | engine made => exact .engine made rfl rfl (fun _ => congrArg Call.engine) rfl rfl
  | step source => exact effect_step indexed source
  | setValue name value => exact effect_setValue indexed name value
  | raiseAlert name message severity => exact effect_raiseAlert state name message severity
  | clearAlert name => exact effect_clearAlert state name
  | subscribe _ _ | unsubscribe _ | setHook _ | notify _ _ =>
    exact .idle rfl rfl (fun _ => .inl) rfl

/-- The store of a simulator receives calls of a store only, so one that was
reached by such calls is reached by one more of them or by the same. -/
theorem reachable_perform {state : Simulator σ × σ} (reachable : state.1.store.Reachable)
    (call : Call σ) : (perform state call).1.store.Reachable := by
  cases effect_perform reachable.indexed call with
  | idle store engine raised unsettled =>
    rw [store]
    exact reachable
  | channel spec registered engine alerts unsettled =>
    have made : state.1.store.perform (.register spec) = (perform state call).1.store := by
      rw [Store.perform, registered, standing_ok]
    rw [← made]
    exact reachable.perform _
  | engine made store engine direct alerts unsettled =>
    rw [store]
    exact reachable
  | settled made store names checked watches alerts settled =>
    rw [store]
    exact reachable.perform made

/-- And so it stays through a run, whatever the calls on the simulator were. -/
theorem reachable_run {state : Simulator σ × σ} (reachable : state.1.store.Reachable)
    (calls : List (Call σ)) : (run calls state).1.store.Reachable :=
  List.foldlRecOn (motive := fun state => state.1.store.Reachable) calls perform reachable
    fun _ held call _ => reachable_perform held call

/-- The store of a simulator that started afresh is reachable as a store, since
it starts as the empty one. -/
theorem reachable_start (calls : List (Call σ)) (outside : σ) :
    (run calls ({}, outside)).1.store.Reachable :=
  reachable_run ⟨[], rfl⟩ calls

/-- No call gives two rules one name. Rules enter by registration on the engine
alone, which refuses a name that is taken. -/
theorem distinct_perform {state : Simulator σ × σ} (reachable : state.1.store.Reachable)
    (distinct : state.1.engine.Distinct) (call : Call σ) :
    (perform state call).1.engine.Distinct := by
  cases effect_perform reachable.indexed call with
  | idle store engine raised unsettled =>
    rw [engine]
    exact distinct
  | channel spec registered engine alerts unsettled =>
    rw [engine]
    exact distinct
  | engine made store engine direct alerts unsettled =>
    rw [engine]
    exact Engine.distinct_perform distinct made
  | settled made store names checked watches alerts settled =>
    rw [Engine.Distinct, watches, List.map_map]
    exact distinct

/-- No call forgets the tick of an alert raised by hand: an alert is added with
its tick and then kept or dropped as it is. -/
theorem raised_perform {state : Simulator σ × σ} (reachable : state.1.store.Reachable)
    (raised : ∀ alert ∈ state.1.alerts, alert.raisedAt.isSome = true) (call : Call σ) :
    ∀ alert ∈ (perform state call).1.alerts, alert.raisedAt.isSome = true := by
  cases effect_perform reachable.indexed call with
  | idle store engine added unsettled =>
    intro alert member
    exact (added alert member).elim (raised alert) id
  | channel spec registered engine alerts unsettled =>
    rw [alerts]
    exact raised
  | engine made store engine direct alerts unsettled =>
    rw [alerts]
    exact raised
  | settled made store names checked watches alerts settled =>
    rw [alerts]
    exact raised

end Telemetry.Simulator
