import Telemetry.Proofs.AppRuns
import Telemetry.Proofs.Atomicity
import Telemetry.Proofs.EngineRegistrations

/-!
# Every channel that is read is registered

A derivation declares channels and a rule watches one. The simulator accepts
either only when these channels are registered, and no call takes a channel out
of the store again. What the engine reads is therefore registered at every point
of a run, as long as nothing is registered on the engine itself. Deriving,
watching and resetting change neither what a derivation declares nor what a rule
watches.

A step is refused only when something dangles, so such a simulator can always
step, and an override is refused only for its own value or name. An application
is brought up by calls of this kind, whatever its configuration, and inherits
both.
-/
namespace Telemetry

namespace Engine

/-- The channels that derivations declare and rules watch. -/
def reads (engine : Engine) : List String :=
  engine.derivations.flatMap Derivation.dependsOn ++
    engine.watches.map fun watch => watch.rule.channel

/-- The channels that a call asks the engine to read from then on. -/
def Call.declared : Call → List String
  | registerDerivation _ dependsOn _ => dependsOn
  | registerRule rule => [rule.channel]
  | _ => []

/-- Evaluating derivations leaves what they declare, and writes only what they
remember. -/
theorem dependsOn_remember (snapshot : Snapshot) (derivations : List Derivation) :
    (derivations.map (.remember snapshot)).flatMap Derivation.dependsOn =
      derivations.flatMap Derivation.dependsOn := by
  rw [List.flatMap_map]
  rfl

/-- Comparing rules leaves what they watch, and writes only their flags. -/
theorem channel_observe (snapshot : Snapshot) (watches : List Watch) :
    ((watches.map (Watch.observe snapshot)).map fun watch => watch.rule.channel) =
      watches.map fun watch => watch.rule.channel := by
  rw [List.map_map]
  rfl

/-- Resetting a derivation leaves what it declares. -/
theorem dependsOn_forget (name : String) (derivations : List Derivation) :
    (forget name derivations).flatMap Derivation.dependsOn =
      derivations.flatMap Derivation.dependsOn := by
  rw [List.flatMap_def, List.flatMap_def, map_forget fun _ => rfl]

/-- After a call the engine reads what it has read before and what the call
declares. Only registrations declare something, and they drop no more than
repetitions of it. -/
theorem reads_perform {engine : Engine} {call : Call} {channel : String}
    (read : channel ∈ (engine.perform call).reads) :
    channel ∈ engine.reads ∨ channel ∈ call.declared := by
  cases call with
  | registerDerivation name dependsOn compute =>
    cases outcome : engine.registerDerivation name dependsOn compute with
    | error fault =>
      rw [perform, outcome, standing_error] at read
      exact .inl read
    | ok after =>
      rw [perform, outcome, standing_ok] at read
      obtain ⟨_, _, rfl⟩ := registerDerivation_eq_ok_iff.mp outcome
      simp only [reads, List.flatMap_append, List.mem_append] at read
      rcases read with (former | new) | watched
      · exact .inl (List.mem_append_left _ former)
      · rw [List.flatMap_singleton] at new
        exact .inr (mem_firstOccurrences_iff.mp new)
      · exact .inl (List.mem_append_right _ watched)
  | registerRule rule =>
    cases outcome : engine.registerRule rule with
    | error fault =>
      rw [perform, outcome, standing_error] at read
      exact .inl read
    | ok after =>
      rw [perform, outcome, standing_ok] at read
      obtain ⟨_, _, rfl⟩ := registerRule_eq_ok_iff.mp outcome
      simp only [reads, List.map_append, List.mem_append] at read
      rcases read with declared | former | new
      · exact .inl (List.mem_append_left _ declared)
      · exact .inl (List.mem_append_right _ former)
      · exact .inr new
  | recompute snapshot =>
    refine .inl ?_
    cases outcome : engine.recompute snapshot with
    | error fault => rwa [perform, outcome] at read
    | ok result =>
      obtain ⟨metrics, after⟩ := result
      obtain ⟨_, _, derived⟩ := recompute_eq_ok_iff.mp outcome
      have done : engine.perform (.recompute snapshot) = after := by
        rw [perform, outcome]
        rfl
      rwa [done, ← derived, reads, dependsOn_remember] at read
  | watch snapshot =>
    refine .inl ?_
    cases outcome : engine.watch snapshot with
    | error fault => rwa [perform, outcome] at read
    | ok result =>
      obtain ⟨transitions, after⟩ := result
      obtain ⟨_, _, watched⟩ := watch_eq_ok_iff.mp outcome
      have done : engine.perform (.watch snapshot) = after := by
        rw [perform, outcome]
        rfl
      rwa [done, ← watched, reads, channel_observe] at read
  | resetDerivation name =>
    refine .inl ?_
    cases outcome : engine.resetDerivation name with
    | error fault => rwa [perform, outcome] at read
    | ok after =>
      obtain ⟨_, rfl⟩ := resetDerivation_eq_ok_iff.mp outcome
      rwa [perform, outcome, standing_ok, reads, dependsOn_forget] at read

end Engine

namespace Simulator

variable {σ : Type}

/-- Every channel that the engine reads is registered. -/
def Closed (simulator : Simulator σ) : Prop :=
  ∀ channel ∈ simulator.engine.reads, channel ∈ simulator.store.names

/-- Nothing is registered on the engine itself, past the check against the
store. -/
def Call.Guarded : Call σ → Prop
  | .engine (.registerDerivation _ _ _) => False
  | .engine (.registerRule _) => False
  | _ => True

/-- Closed is the same as nothing dangling, said of all channels that are read
at once. -/
theorem closed_iff_not_dangling {simulator : Simulator σ} :
    simulator.Closed ↔ ¬ simulator.Dangling := by
  simp only [Closed, Engine.reads, Dangling, Engine.rules, List.mem_append, List.mem_flatMap,
    List.mem_map]
  constructor
  · rintro closed (⟨derivation, member, channel, declared, missing⟩ |
      ⟨rule, ⟨watch, member, rfl⟩, missing⟩)
    · exact missing (closed channel (.inl ⟨derivation, member, declared⟩))
    · exact missing (closed _ (.inr ⟨watch, member, rfl⟩))
  · rintro sound channel (⟨derivation, member, declared⟩ | ⟨watch, member, rfl⟩)
    · by_contra missing
      exact sound (.inl ⟨derivation, member, channel, declared, missing⟩)
    · by_contra missing
      exact sound (.inr ⟨watch.rule, ⟨watch, member, rfl⟩, missing⟩)

/-- New names do no harm, nor does anything that leaves the engine's reading
alone. -/
theorem Closed.of_reads {former after : Simulator σ} (closed : former.Closed)
    (names : ∀ name ∈ former.store.names, name ∈ after.store.names)
    (reads : after.engine.reads = former.engine.reads) : after.Closed := by
  intro channel read
  rw [reads] at read
  exact names channel (closed channel read)

/-- A call on the engine may declare registered channels. All that it reads
afterwards was read before or is among those. -/
theorem Closed.of_engine {former : Simulator σ} (closed : former.Closed) {made : Engine.Call}
    (known : ∀ channel ∈ made.declared, channel ∈ former.store.names) :
    Closed { former with engine := former.engine.perform made } := by
  intro channel read
  rcases Engine.reads_perform read with old | new
  · exact closed channel old
  · exact known channel new

/-- No call that passes the check opens a reference. Registrations are checked
against the store, and every other call leaves what is read and takes no name
away. -/
theorem closed_perform {state : Simulator σ × σ} (reachable : state.1.store.Reachable)
    (closed : state.1.Closed) {call : Call σ} (guarded : call.Guarded) :
    (perform state call).1.Closed := by
  have indexed := reachable.indexed
  cases call with
  | registerChannel spec =>
    cases outcome : state.1.store.register spec with
    | error fault => simpa [perform, registerChannel, outcome] using closed
    | ok store =>
      refine closed.of_reads ?_ ?_
      · intro name known
        simp [perform, registerChannel, outcome, Store.names_register outcome, known]
      · simp [perform, registerChannel, outcome]
  | registerDerivation name dependsOn compute =>
    simp only [perform, standing_registerDerivation]
    by_cases known : dependsOn.all state.1.store.contains = true
    · rw [if_pos known]
      refine closed.of_engine fun channel declared => ?_
      exact (Store.contains_iff indexed channel).mp (List.all_eq_true.mp known channel declared)
    · rw [if_neg known]
      exact closed
  | registerRule rule =>
    simp only [perform, standing_registerRule]
    by_cases known : state.1.store.contains rule.channel = true
    · rw [if_pos known]
      refine closed.of_engine fun channel declared => ?_
      rw [List.mem_singleton.mp declared]
      exact (Store.contains_iff indexed rule.channel).mp known
    · rw [if_neg known]
      exact closed
  | engine made =>
    refine closed.of_engine ?_
    cases made with
    | registerDerivation _ _ _ | registerRule _ => exact guarded.elim
    | recompute _ | watch _ | resetDerivation _ =>
      intro channel declared
      cases declared
  | step source =>
    cases checked : state.1.checkInputs with
    | error fault =>
      rw [(step_of_unchecked indexed checked source).1]
      exact closed
    | ok =>
      rw [(step_of_checked indexed checked source).1]
      refine closed.of_reads ?_ ?_
      · intro name known
        rwa [← Store.names_tick state.1.store source] at known
      · simp only [Session.stepped, Engine.reads, Engine.dependsOn_remember, Engine.channel_observe]
  | setValue name value =>
    rcases setValue_cases indexed name value with ⟨done, _⟩ | ⟨_, _, _, written, done, _⟩
    · rw [done]
      exact closed
    · rw [done]
      refine closed.of_reads ?_ ?_
      · intro other known
        rwa [← (Store.names_setValue written).1] at known
      · simp only [Session.overridden, Engine.reads, Engine.channel_observe]
  | raiseAlert name message severity =>
    rw [perform_raiseAlert]
    exact closed
  | clearAlert name =>
    simp only [perform, clearAlert]
    split <;> exact closed
  | subscribe _ _ | unsubscribe _ | setHook _ | notify _ _ => exact closed

/-- And so a run of such calls keeps every reference closed. -/
theorem closed_run {state : Simulator σ × σ} (reachable : state.1.store.Reachable)
    (closed : state.1.Closed) {calls : List (Call σ)} (guarded : ∀ call ∈ calls, call.Guarded) :
    (run calls state).1.Closed := by
  induction calls generalizing state with
  | nil => exact closed
  | cons call rest inductionHypothesis =>
    refine inductionHypothesis (reachable_perform reachable call) ?_ ?_
    · exact closed_perform reachable closed (guarded call List.mem_cons_self)
    · exact fun later member => guarded later (List.mem_cons_of_mem call member)

/-- Every reference is closed after such a run from a new simulator, which reads
nothing. -/
theorem closed_start {calls : List (Call σ)} (guarded : ∀ call ∈ calls, call.Guarded)
    (outside : σ) : (run calls ({}, outside)).1.Closed :=
  closed_run ⟨[], rfl⟩ (by simp [Closed, Engine.reads]) guarded

end Simulator

namespace Session

variable {σ ρ : Type} {session : Session σ ρ}

/-- A step that is not refused has a report. In a closed simulator nothing
dangles, and only what dangles is refused. -/
theorem step_succeeds [Source ρ] (indexed : session.simulator.store.Indexed)
    (closed : session.simulator.Closed) : ∃ report, (step.on session).1 = .ok report := by
  have accepted : ¬ step.Refused session := by
    rw [step_refused_iff indexed]
    exact Simulator.closed_iff_not_dangling.mp closed
  cases outcome : (step.on session).1 with
  | error fault => exact absurd ⟨fault, outcome⟩ accepted
  | ok report => exact ⟨report, rfl⟩

/-- In a closed simulator an override is refused for its own value or name
only. -/
theorem setValue_succeeds_iff (indexed : session.simulator.store.Indexed)
    (closed : session.simulator.Closed) (name : String) (value : Float) :
    (∃ transitions, ((setValue name value).on session).1 = .ok transitions) ↔
      value.isFinite = true ∧ name ∈ session.simulator.store.names := by
  have refused := setValue_refused_iff indexed name value
  have sound := Simulator.closed_iff_not_dangling.mp closed
  cases outcome : ((setValue name value).on session).1 with
  | error fault =>
    have failed := refused.mp ⟨fault, outcome⟩
    simp only [reduceCtorEq, exists_false, false_iff]
    rintro ⟨finite, known⟩
    rcases failed with dangling | infinite | unknown
    · exact sound dangling
    · rw [finite] at infinite
      exact nomatch infinite
    · exact unknown known
  | ok transitions =>
    refine iff_of_true ⟨transitions, rfl⟩ ?_
    by_contra fails
    rw [not_and_or, Bool.not_eq_true] at fails
    obtain ⟨fault, failed⟩ := refused.mpr (.inr fails)
    rw [outcome] at failed
    exact nomatch failed

end Session

namespace App

variable {ω ρ : Type}

/-- Nothing is registered on the engine itself. -/
def Call.Guarded (call : Call ω) : Prop := call.inner.Guarded

/-- No call of an application that passes the check opens a reference, since it
amounts to a call of its simulator. -/
theorem closed_serve {state : Simulator (Board ω) × Board ω}
    (reachable : state.1.store.Reachable) (closed : state.1.Closed) {calls : List (Call ω)}
    (guarded : ∀ call ∈ calls, call.Guarded) :
    (serve calls state).1.store.Reachable ∧ (serve calls state).1.Closed := by
  induction calls generalizing state with
  | nil => exact ⟨reachable, closed⟩
  | cons call rest inductionHypothesis =>
    refine inductionHypothesis (reachable_perform reachable call) ?_ ?_
    · rw [simulator_perform]
      exact Simulator.closed_perform reachable closed (guarded call List.mem_cons_self)
    · exact fun later member => guarded later (List.mem_cons_of_mem call member)

/-- A configuration registers nothing on the engine itself, whatever it
holds. -/
theorem guarded_setup (config : Config) :
    ∀ call ∈ registrations config ++ attachments config.pace.jsonSnapshots ++
        (startAlerts config : List (Simulator.Call (Board ω))),
      call.Guarded := by
  intro call member
  simp only [registrations, attachments, startAlerts, List.mem_append, List.mem_cons,
    List.mem_map] at member
  rcases member with (((⟨_, _, rfl⟩ | ⟨_, _, rfl⟩) | ⟨_, _, rfl⟩) | rfl | ⟨_, _, rfl⟩) |
    ⟨_, _, rfl⟩ <;> exact trivial

/-- An application starts with every reference closed: it is brought up by calls
that pass the check. -/
theorem closed_ofConfig {config : Config} {source : ρ} {guest : ω} {app : App ω ρ}
    (built : ofConfig config source guest = .ok app) :
    app.simulator.store.Reachable ∧ app.simulator.Closed := by
  have started := run_of_ofConfig built
  have reachable := Simulator.reachable_start
    (registrations config ++ attachments config.pace.jsonSnapshots ++ startAlerts config)
    ({ guest := guest } : Board ω)
  have closed := Simulator.closed_start (guarded_setup config) ({ guest := guest } : Board ω)
  rw [started] at reachable closed
  exact ⟨reachable, closed⟩

/-- A timed step succeeds where the step does, as timing it refuses nothing. -/
theorem step_succeeds [Source ρ] {app : App ω ρ} (indexed : app.simulator.store.Indexed)
    (closed : app.simulator.Closed) (took : Span) :
    ∃ report, ((App.step took).on app).1 = .ok report := by
  obtain ⟨report, outcome⟩ := Session.step_succeeds indexed closed
  refine ⟨report, ?_⟩
  rw [step_on]
  rcases stepped : Session.step.on app with ⟨_, after⟩
  rw [stepped] at outcome
  dsimp only at outcome
  rw [outcome]

end App

/-- A simulator on which registrations are made through its own methods only:
every channel that a derivation declares or a rule watches is registered,
whatever calls were made or refused. It steps with every source, and takes every
override of a registered channel by a finite value. An application that a
configuration yields steps after every such run of further calls.

Every reference is closed after such a run. What a step or an override could be
refused for would be a reference that is not. -/
theorem references_closed {σ : Type} {calls : List (Simulator.Call σ)}
    (guarded : ∀ call ∈ calls, call.Guarded) (outside : σ) :
    let state := Simulator.run calls ({}, outside)
    (∀ derivation ∈ state.1.engine.derivations, ∀ channel ∈ derivation.dependsOn,
        channel ∈ state.1.store.names) ∧
      (∀ rule ∈ state.1.engine.rules, rule.channel ∈ state.1.store.names) ∧
      (∀ {ρ : Type} [Source ρ] (source : ρ), ∃ report,
        (Session.step.on (⟨state.1, source, state.2⟩ : Session σ ρ)).1 = .ok report) ∧
      (∀ {ρ : Type} (source : ρ) (name : String) (value : Float),
        (∃ transitions, ((Session.setValue name value).on
            (⟨state.1, source, state.2⟩ : Session σ ρ)).1 = .ok transitions) ↔
          value.isFinite = true ∧ name ∈ state.1.store.names) ∧
      ∀ {ω ρ : Type} {config : Config} {source : ρ} {guest : ω} {app : App ω ρ},
        App.ofConfig config source guest = .ok app →
        ∀ later : List (App.Call ω), (∀ call ∈ later, call.Guarded) →
          let reached := App.serve later (app.simulator, app.outside)
          ∀ {τ : Type} [Source τ] (source : τ) (took : Span), ∃ report,
            ((App.step took).on (⟨reached.1, source, reached.2⟩ : App ω τ)).1 = .ok report := by
  intro state
  have indexed : state.1.store.Indexed := (Simulator.reachable_start calls outside).indexed
  have closed : state.1.Closed := Simulator.closed_start guarded outside
  refine ⟨?_, ?_, ?_, ?_, ?_⟩
  · intro derivation member channel declared
    exact closed channel
      (List.mem_append_left _ (List.mem_flatMap.mpr ⟨derivation, member, declared⟩))
  · intro rule member
    obtain ⟨watch, within, rfl⟩ := List.mem_map.mp member
    exact closed _ (List.mem_append_right _ (List.mem_map.mpr ⟨watch, within, rfl⟩))
  · intro ρ _ source
    exact Session.step_succeeds indexed closed
  · intro ρ source name value
    exact Session.setValue_succeeds_iff indexed closed name value
  · intro ω ρ config source guest app built later checked reached τ _ source took
    obtain ⟨startReachable, startClosed⟩ := App.closed_ofConfig built
    have served : reached.1.store.Reachable ∧ reached.1.Closed :=
      App.closed_serve startReachable startClosed checked
    exact App.step_succeeds served.1.indexed served.2 took

/-- A rule on an unknown channel is refused, registered once its channel exists,
and the simulator steps. -/
theorem references_closed_late_channel :
    let oven : ChannelSpec := ⟨"oven", 20, 0, 300, 5⟩
    let hot : Rule := ⟨"hot", "oven", .above, 200, .warning, ""⟩
    let calls : List (Simulator.Call Unit) :=
      [.registerRule hot, .registerChannel oven, .registerRule hot,
        .registerDerivation "twice" ["oven", "oven"] fun context =>
          .ofOption (context.reading "oven"),
        .setValue "kettle" 90]
    let state := Simulator.run calls ({}, ())
    (∀ call ∈ calls, call.Guarded) ∧
      ∃ report,
        (Session.step.on (⟨state.1, ⟨1⟩, state.2⟩ : Session Unit Fixed)).1 = .ok report := by
  intro oven hot calls state
  have guarded : ∀ call ∈ calls, call.Guarded := by simp [calls, Simulator.Call.Guarded]
  exact ⟨guarded, (references_closed guarded ()).2.2.1 (⟨1⟩ : Fixed)⟩

end Telemetry
