import Telemetry.Engine
import Telemetry.Event
import Telemetry.Observer.Dispatch
import Telemetry.Store

/-!
# The simulator

The simulator joins the store, the engine and the listeners. One step moves the
channels, derives metrics, compares the rules and then tells the listeners, in
that order. Inputs are checked before anything moves, so a step that is refused
has changed nothing; registrations made on the engine directly, which skip the
check against the store, are caught there.

Operations act on a `Session`: the simulator, the source its walk draws from,
and the world outside that listeners write to. An operation that fails hands
back the session as it left it, so that "nothing changed" is something to be
proved and not a matter of types.
-/
namespace Telemetry

/-- A computation that may be refused; what it had done before stays done. -/
abbrev Attempt (s α : Type) := ExceptT Fault (StateM s) α

/-- Store, engine, listeners acting on `σ`, alerts, and failed listener
calls. -/
structure Simulator (σ : Type) where
  store : Store := {}
  engine : Engine := {}
  observers : Observer.Registry EventKind σ (Observer.Listener Event σ) := {}
  /-- Alerts raised by hand, the oldest first. -/
  alerts : List Alert := []
  listenerFailures : Nat := 0

namespace Simulator

variable {σ : Type}

/-- Register a channel. -/
def registerChannel (simulator : Simulator σ) (spec : ChannelSpec) :
    Except Fault (Simulator σ) := do
  let store ← simulator.store.register spec
  return { simulator with store := store }

/-- Register a derivation; every channel it declares must be registered. -/
def registerDerivation (simulator : Simulator σ) (name : String) (dependsOn : List String)
    (compute : Context → Value) : Except Fault (Simulator σ) :=
  match dependsOn.find? fun channel => !simulator.store.contains channel with
  | some channel => .error (.dependencyUnknown name channel)
  | none => do
    let engine ← simulator.engine.registerDerivation name dependsOn compute
    return { simulator with engine := engine }

/-- Register a rule; its channel must be registered. -/
def registerRule (simulator : Simulator σ) (rule : Rule) : Except Fault (Simulator σ) :=
  if simulator.store.contains rule.channel then do
    let engine ← simulator.engine.registerRule rule
    return { simulator with engine := engine }
  else .error (.ruleChannelUnknown rule.name rule.channel)

/-- Remove every alert of this name that was raised by hand. -/
def clearAlert (simulator : Simulator σ) (name : String) : Except Fault (Simulator σ) :=
  if simulator.alerts.any fun alert => alert.name = name then
    .ok { simulator with alerts := simulator.alerts.filter fun alert => alert.name ≠ name }
  else .error (.notRegistered .alert name)

/-- Alerts raised by hand, then the active rules. -/
def activeAlerts (simulator : Simulator σ) : List Alert :=
  simulator.alerts ++ simulator.engine.activeRules.map Alert.ofRule

/-- The current readings. -/
def snapshot (simulator : Simulator σ) : Snapshot := simulator.store.snapshot

/-- Whether every channel that the engine reads is registered. -/
def checkInputs (simulator : Simulator σ) : Except Fault Unit :=
  simulator.engine.checkInputs simulator.store.contains

end Simulator

/-- A simulator, the source of its draws, and the world its listeners act on. -/
structure Session (σ ρ : Type) where
  simulator : Simulator σ
  source : ρ
  outside : σ

namespace Session

variable {σ ρ : Type}

/-- Refuse to go on while an input is missing. -/
def checkInputs : Attempt (Session σ ρ) Unit := do
  let session ← get
  match session.simulator.checkInputs with
  | .ok () => pure ()
  | .error fault => throw fault

/-- Move the channels. -/
def tick [Source ρ] : Attempt (Session σ ρ) Snapshot := do
  let session ← get
  let (store, source) := session.simulator.store.tick session.source
  set { session with simulator := { session.simulator with store := store }, source := source }
  return store.snapshot

/-- Overwrite a reading. -/
def overwrite (name : String) (value : Float) : Attempt (Session σ ρ) Snapshot := do
  let session ← get
  match session.simulator.store.setValue name value with
  | .ok (_, store) =>
    set { session with simulator := { session.simulator with store := store } }
    return store.snapshot
  | .error fault => throw fault

/-- Derive metrics from a snapshot. -/
def recompute (snapshot : Snapshot) : Attempt (Session σ ρ) Metrics := do
  let session ← get
  match session.simulator.engine.recompute snapshot with
  | .ok (metrics, engine) =>
    set { session with simulator := { session.simulator with engine := engine } }
    return metrics
  | .error fault => throw fault

/-- Compare the rules with a snapshot. -/
def watch (snapshot : Snapshot) : Attempt (Session σ ρ) (List Transition) := do
  let session ← get
  match session.simulator.engine.watch snapshot with
  | .ok (transitions, engine) =>
    set { session with simulator := { session.simulator with engine := engine } }
    return transitions
  | .error fault => throw fault

/-- Tell the listeners of a kind about an event. -/
def notify (kind : EventKind) (event : Event) : Attempt (Session σ ρ) Observer.Report := do
  let session ← get
  let (report, outside) := session.simulator.observers.notify kind event session.outside
  set { session with outside := outside }
  return report

/-- Tell of each transition in turn, and count the failed calls. -/
def announce : List Transition → Attempt (Session σ ρ) Nat
  | [] => pure 0
  | transition :: rest => do
    let report ← notify .threshold (.threshold transition)
    let later ← announce rest
    return report.failed + later

/-- Add to the count of failed listener calls. -/
def recordFailures (failed : Nat) : Attempt (Session σ ρ) Unit :=
  modify fun session =>
    { session with
      simulator := { session.simulator with
        listenerFailures := session.simulator.listenerFailures + failed } }

/-- One tick: move, derive, compare, tell. -/
def step [Source ρ] : Attempt (Session σ ρ) TickReport := do
  checkInputs
  let snapshot ← tick
  let derived ← recompute snapshot
  let transitions ← watch snapshot
  let ticked ← notify .tick (.tick snapshot)
  let derivedTold ← notify .derived (.derived derived)
  let announced ← announce transitions
  let failures := ticked.failed + derivedTold.failed + announced
  recordFailures failures
  return ⟨snapshot, derived, transitions, failures⟩

/-- Overwrite a reading, then compare the rules with the new readings. -/
def setValue (name : String) (value : Float) : Attempt (Session σ ρ) (List Transition) := do
  checkInputs
  let snapshot ← overwrite name value
  let transitions ← watch snapshot
  let failures ← announce transitions
  recordFailures failures
  return transitions

/-- Raise an alert and tell its listeners. -/
def raiseAlert (name message : String) (severity : Severity) : Attempt (Session σ ρ) Alert := do
  let session ← get
  let alert : Alert := ⟨name, message, severity, some session.simulator.store.ticks⟩
  set { session with
    simulator := { session.simulator with alerts := session.simulator.alerts ++ [alert] } }
  let report ← notify .alert (.alert alert)
  recordFailures report.failed
  return alert

end Session

end Telemetry
