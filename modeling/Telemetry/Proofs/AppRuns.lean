import Telemetry.App
import Telemetry.Proofs.Announcements

/-!
# Runs of an application

An application is brought up by calls of its simulator: the registrations of its
configuration, the hook and the listeners of its own, and the alerts of the
start. It is then driven by timed steps and by further calls on the simulator.
So whatever is known of the runs of a simulator is known of an application, and
what is left to say is what a timed step adds: where the step is not refused, it
is counted and timed on the board.
-/
namespace Telemetry

namespace Simulator

/-- Where none of some attempts was refused, they have done what their calls do.
A chain of attempts that succeeds is thereby a run, and all that is known of
runs applies. -/
theorem run_of_foldlM {σ α : Type} {attempt : Simulator σ → α → Except Fault (Simulator σ)}
    {call : α → Call σ} {outside : σ}
    (made : ∀ simulator part,
      perform (simulator, outside) (call part) =
        (standing simulator (attempt simulator part), outside))
    {parts : List α} {former latter : Simulator σ}
    (done : parts.foldlM attempt former = .ok latter) :
    run (parts.map call) (former, outside) = (latter, outside) := by
  induction parts generalizing former with
  | nil => exact congrArg (·, outside) (Except.ok.inj done)
  | cons part rest inductionHypothesis =>
    rw [List.foldlM_cons, bind_eq_ok_iff] at done
    obtain ⟨next, taken, further⟩ := done
    rw [List.map_cons, run, List.foldl_cons, made, taken, standing_ok]
    exact inductionHypothesis further

/-- A run in two parts goes on from where its first part has led. -/
theorem run_append {σ : Type} (first second : List (Call σ)) (state : Simulator σ × σ) :
    run (first ++ second) state = run second (run first state) :=
  List.foldl_append

end Simulator

/-- A board on which a tick of some length has been counted. -/
def Board.timed {ω : Type} (board : Board ω) (took : Span) : Board ω :=
  { board with
    metrics := { board.metrics with
      tickDuration := Metering.Histograms.observe board.metrics.tickDuration [] took
      ticks := Metering.Counters.increment board.metrics.ticks [] } }

namespace App

variable {ω ρ : Type}

/-- A call that an application can receive. -/
inductive Call (ω : Type) : Type 1 where
  /-- A step that took some time, with a source of any type. -/
  | step {ρ : Type} [Source ρ] (source : ρ) (took : Span)
  /-- A call on the simulator of the application. -/
  | simulator (call : Simulator.Call (Board ω))

/-- The simulator of an application and its board after a call, refused or
not. -/
def perform (state : Simulator (Board ω) × Board ω) : Call ω → Simulator (Board ω) × Board ω
  | @Call.step _ _ _ source took => Simulator.left (App.step took) source state
  | .simulator call => Simulator.perform state call

/-- The simulator of an application and its board after calls made one after
another. -/
def serve (calls : List (Call ω)) (state : Simulator (Board ω) × Board ω) :
    Simulator (Board ω) × Board ω :=
  calls.foldl perform state

/-- A timed step is a step, counted unless it was refused. The count is taken
outside the simulator, after the step has returned. -/
theorem step_on [Source ρ] (took : Span) (app : App ω ρ) :
    (App.step took).on app =
      match Session.step.on app with
      | (.ok report, after) => (.ok report, { after with outside := after.outside.timed took })
      | (.error fault, after) => (.error fault, after) := by
  simp only [App.step, Attempt.on_bind]
  rcases Session.step.on app with ⟨outcome, after⟩
  cases outcome <;> rfl

/-- The call of the simulator that a call of the application amounts to. -/
def Call.inner : Call ω → Simulator.Call (Board ω)
  | @Call.step _ _ _ source _ => .step source
  | .simulator call => call

/-- Timing a step changes nothing but the board, so a run of an application is a
run of its simulator as far as the simulator is concerned. -/
theorem simulator_perform (state : Simulator (Board ω) × Board ω) (call : Call ω) :
    (perform state call).1 = (Simulator.perform state call.inner).1 := by
  cases call with
  | @step ρ _ source took =>
    simp only [perform, Call.inner, Simulator.perform, Simulator.left, step_on]
    rcases Session.step.on (⟨state.1, source, state.2⟩ : App ω ρ) with ⟨outcome, after⟩
    cases outcome <;> rfl
  | simulator call => rfl

/-- The store of an application stays reachable, since its simulator receives a
call of its own for each call of the application. -/
theorem reachable_perform {state : Simulator (Board ω) × Board ω}
    (reachable : state.1.store.Reachable) (call : Call ω) :
    (perform state call).1.store.Reachable := by
  rw [simulator_perform]
  exact Simulator.reachable_perform reachable call.inner

/-- A timed step is counted on the board unless it is refused. It is refused
exactly when it reports nothing. -/
theorem perform_step [Source ρ] (state : Simulator (Board ω) × Board ω) (source : ρ) (took : Span) :
    perform state (.step source took) =
      let after := Simulator.perform state (.step source)
      match Simulator.reported state (.step source) with
      | [] => after
      | _ :: _ => (after.1, after.2.timed took) := by
  simp only [perform, Simulator.perform, Simulator.left, Simulator.reported, step_on]
  rcases Session.step.on (⟨state.1, source, state.2⟩ : App ω ρ) with ⟨outcome, after⟩
  cases outcome <;> rfl

/-- What the calls of a run hand out on the simulator, in order. -/
def gathered {β : Type} (part : Simulator (Board ω) × Board ω → Simulator.Call (Board ω) → List β)
    (calls : List (Call ω)) (state : Simulator (Board ω) × Board ω) : List β :=
  along perform (fun state call => part state call.inner) calls state

/-- The calls by which a configuration is registered. -/
def registrations {σ : Type} (config : Config) : List (Simulator.Call σ) :=
  config.channels.map .registerChannel ++
    (config.derivations.map fun derivation =>
      .registerDerivation derivation.name derivation.formula.dependsOn
        derivation.formula.compute) ++
    config.rules.map .registerRule

/-- The calls by which an application subscribes its listeners. -/
def attachments (jsonSnapshots : Bool) : List (Simulator.Call (Board ω)) :=
  .setHook failureHook ::
    (listeners jsonSnapshots).map fun (kind, listener) => .subscribe kind listener

/-- The calls by which the alerts of the start are raised. -/
def startAlerts {σ : Type} (config : Config) : List (Simulator.Call σ) :=
  config.alerts.map fun alert => .raiseAlert alert.name alert.message alert.severity

/-- Registering a configuration makes its calls, and none of them is refused:
channels come first, then derivations and rules, which may name any of the
channels. -/
theorem run_registrations {config : Config} {simulator : Simulator (Board ω)}
    (registered : register config = .ok simulator) (board : Board ω) :
    Simulator.run (registrations config) ({}, board) = (simulator, board) := by
  unfold register at registered
  simp only [bind_eq_ok_iff] at registered
  obtain ⟨withChannels, channels, withDerivations, derivations, rules⟩ := registered
  rw [registrations, Simulator.run_append, Simulator.run_append,
    Simulator.run_of_foldlM (fun _ _ => rfl) channels,
    Simulator.run_of_foldlM (fun _ _ => rfl) derivations,
    Simulator.run_of_foldlM (fun _ _ => rfl) rules]

/-- Attaching the listeners makes its calls, one after another, and cannot be
refused. -/
theorem run_attachments (jsonSnapshots : Bool) (simulator : Simulator (Board ω))
    (board : Board ω) :
    Simulator.run (attachments jsonSnapshots) (simulator, board) =
      (attach jsonSnapshots simulator, board) := by
  cases jsonSnapshots <;> rfl

/-- Raising the alerts of the start makes its calls, and is never refused. So an
application that can be registered can be built. -/
theorem raiseAll_on (alerts : List StartupAlert) (app : App ω ρ) :
    let raised := Simulator.run
      (alerts.map fun alert => .raiseAlert alert.name alert.message alert.severity)
      (app.simulator, app.outside)
    (raiseAll alerts).on app =
      (.ok (), { app with simulator := raised.1, outside := raised.2 }) := by
  induction alerts generalizing app with
  | nil => rfl
  | cons alert rest inductionHypothesis =>
    simp only [raiseAll, Attempt.on_bind, Session.raiseAlert_on, inductionHypothesis, List.map_cons,
      Simulator.run, List.foldl_cons, Simulator.perform_raiseAlert]

/-- A configuration yields an application exactly when it can be registered, and
then the application is what its calls lead to. -/
theorem ofConfig_eq_ok_iff {config : Config} {source : ρ} {guest : ω} {app : App ω ρ} :
    ofConfig config source guest = .ok app ↔
      ∃ simulator, register config = .ok simulator ∧
        let state := Simulator.run (startAlerts config)
          (attach config.pace.jsonSnapshots simulator, { guest := guest })
        app = ⟨state.1, source, state.2⟩ := by
  unfold ofConfig
  rw [bind_eq_ok_iff]
  refine exists_congr fun simulator => and_congr_right fun _ => ?_
  have raised := raiseAll_on config.alerts
    ({ simulator := attach config.pace.jsonSnapshots simulator, source := source,
       outside := { guest := guest } } : App ω ρ)
  unfold Attempt.on at raised
  simp only [raised]
  rw [eq_comm (a := app)]
  exact ⟨Except.ok.inj, congrArg _⟩

/-- An application starts where a run of its simulator has led, the
registrations first, then the listeners, then the alerts. -/
theorem run_of_ofConfig {config : Config} {source : ρ} {guest : ω} {app : App ω ρ}
    (built : ofConfig config source guest = .ok app) :
    Simulator.run
        (registrations config ++ attachments config.pace.jsonSnapshots ++ startAlerts config)
        ({}, { guest := guest }) = (app.simulator, app.outside) := by
  obtain ⟨simulator, registered, rfl⟩ := ofConfig_eq_ok_iff.mp built
  rw [Simulator.run_append, Simulator.run_append, run_registrations registered, run_attachments]

end App

end Telemetry
