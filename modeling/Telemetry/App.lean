import Telemetry.Config
import Telemetry.Json.Codec
import Telemetry.Metering.RunMetrics
import Telemetry.Simulator

/-!
# The simulation as an application

An application is a session whose listeners keep the metrics of the run and, if
the configuration asks for it, print every snapshot. They write to a `Board`,
which also has room for whatever further listeners act on. The application's own
listeners come first, so they count the alerts that are raised at the start.
-/
namespace Telemetry

open Metering (RunMetrics)
open Observer (Listener Outcome)

/-- What an application's listeners write to. -/
structure Board (ω : Type) where
  metrics : RunMetrics := {}
  /-- The lines printed so far. -/
  printed : Array String := #[]
  /-- What other listeners act on. -/
  guest : ω

/-- A session whose listeners write to a board. -/
abbrev App (ω ρ : Type) := Session (Board ω) ρ

namespace App

variable {ω ρ : Type}

/-- Change the metrics of the run. -/
def meter (change : RunMetrics → RunMetrics) : StateM (Board ω) Unit :=
  modify fun board => { board with metrics := change board.metrics }

/-- Every reading of a snapshot sets the gauge of its channel. -/
def gaugeListener : Listener Event (Board ω)
  | .tick snapshot => do
    meter fun metrics =>
      { metrics with
        channelValues := snapshot.readings.foldl
          (fun gauges (channel, reading) =>
            Metering.Gauges.set gauges [("channel", channel)] reading)
          metrics.channelValues }
    return .handled
  | _ => return .handled

/-- Every snapshot is printed as a line. -/
def printListener : Listener Event (Board ω)
  | .tick snapshot => do
    modify fun board => { board with printed := board.printed.push snapshot.toJson.compact }
    return .handled
  | _ => return .handled

/-- Every metric without a number is counted. -/
def undefinedListener : Listener Event (Board ω)
  | .derived derived => do
    let undefined := derived.metrics.filter fun metric => metric.value.undefined?.isSome
    meter fun metrics =>
      { metrics with
        undefinedDerivations := undefined.foldl
          (fun counters metric =>
            Metering.Counters.increment counters [("derivation", metric.name)])
          metrics.undefinedDerivations }
    return .handled
  | _ => return .handled

/-- Every transition is counted by rule and direction. -/
def transitionListener : Listener Event (Board ω)
  | .threshold transition => do
    meter fun metrics =>
      { metrics with
        thresholdTransitions := Metering.Counters.increment metrics.thresholdTransitions
          [("rule", transition.rule.name), ("state", transition.edge.name)] }
    return .handled
  | _ => return .handled

/-- Every alert is counted by severity. -/
def alertListener : Listener Event (Board ω)
  | .alert alert => do
    meter fun metrics =>
      { metrics with
        alertsRaised := Metering.Counters.increment metrics.alertsRaised
          [("severity", alert.severity.name)] }
    return .handled
  | _ => return .handled

/-- Every failed listener call is counted by the kind of event. -/
def failureHook (kind : EventKind) (_ : Fault) (board : Board ω) : Board ω :=
  { board with
    metrics := { board.metrics with
      listenerFailures := Metering.Counters.increment board.metrics.listenerFailures
        [("kind", kind.name)] } }

/-- The listeners of an application, with the kinds they listen to. -/
def listeners (jsonSnapshots : Bool) : List (EventKind × Listener Event (Board ω)) :=
  (.tick, gaugeListener) ::
    ((if jsonSnapshots then [(.tick, printListener)] else []) ++
      [(.derived, undefinedListener), (.threshold, transitionListener), (.alert, alertListener)])

/-- Subscribe the application's listeners and install its hook. -/
def attach (jsonSnapshots : Bool) (simulator : Simulator (Board ω)) : Simulator (Board ω) :=
  let hooked := simulator.observers.setHook failureHook
  { simulator with
    observers := (listeners jsonSnapshots).foldl
      (fun observers (kind, listener) => (observers.subscribe kind listener).2) hooked }

/-- Register the channels, the derivations and the rules of a configuration. -/
def register (config : Config) : Except Fault (Simulator (Board ω)) := do
  let withChannels ← config.channels.foldlM Simulator.registerChannel {}
  let withDerivations ← config.derivations.foldlM
    (fun simulator derivation =>
      simulator.registerDerivation derivation.name derivation.formula.dependsOn
        derivation.formula.compute)
    withChannels
  config.rules.foldlM Simulator.registerRule withDerivations

/-- Raise the alerts of the start. -/
def raiseAll : List StartupAlert → Attempt (App ω ρ) Unit
  | [] => pure ()
  | alert :: rest => do
    let _ ← Session.raiseAlert alert.name alert.message alert.severity
    raiseAll rest

/-- The application of a configuration. -/
def ofConfig (config : Config) (source : ρ) (guest : ω) : Except Fault (App ω ρ) := do
  let simulator ← register config
  let session : App ω ρ :=
    { simulator := attach config.pace.jsonSnapshots simulator
      source := source
      outside := { guest := guest } }
  let (outcome, final) := (raiseAll config.alerts).run session
  outcome.map fun _ => final

/-- Count a tick and how long it took. -/
def record (took : Span) : Attempt (App ω ρ) Unit :=
  modify fun app =>
    let metrics := app.outside.metrics
    { app with
      outside := { app.outside with
        metrics := { metrics with
          tickDuration := Metering.Histograms.observe metrics.tickDuration [] took
          ticks := Metering.Counters.increment metrics.ticks [] } } }

/-- One step of the simulation. A step that is refused is not counted. -/
def step [Source ρ] (took : Span) : Attempt (App ω ρ) TickReport := do
  let report ← Session.step
  record took
  return report

end App

end Telemetry
