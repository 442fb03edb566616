import Telemetry.Derivation
import Telemetry.Rule

/-!
# Events of a simulation

What listeners are told about, in four kinds: the readings after a tick, the
metrics derived from them, each change of a rule's flag, and alerts raised by
hand.
-/
namespace Telemetry

/-- A warning, raised by hand or backed by an active rule. -/
structure Alert where
  name : String
  message : String
  severity : Severity
  /-- The tick at which it was raised; rules keep no such record. -/
  raisedAt : Option Nat

/-- The alert that an active rule stands for. -/
def Alert.ofRule (rule : Rule) : Alert := ⟨rule.name, rule.message, rule.severity, none⟩

/-- What listeners can ask for. -/
inductive EventKind where
  | tick
  | derived
  | threshold
  | alert
deriving DecidableEq, Repr

namespace EventKind

/-- Every kind of event. -/
def all : List EventKind := [tick, derived, threshold, alert]

/-- The name of the kind. -/
def name : EventKind → String
  | tick => "tick"
  | derived => "derived"
  | threshold => "threshold"
  | alert => "alert"

/-- The kind with a name, if there is one. -/
def ofName? (name : String) : Option EventKind := all.find? fun kind => kind.name = name

end EventKind

/-- What listeners are told. -/
inductive Event where
  | tick (snapshot : Snapshot)
  | derived (metrics : Metrics)
  | threshold (transition : Transition)
  | alert (alert : Alert)

/-- The kind of an event. -/
def Event.kind : Event → EventKind
  | tick _ => .tick
  | derived _ => .derived
  | threshold _ => .threshold
  | alert _ => .alert

/-- What one step of a simulation produced. -/
structure TickReport where
  snapshot : Snapshot
  derived : Metrics
  transitions : List Transition
  /-- Failed listener calls over all dispatches of the step. -/
  listenerFailures : Nat

end Telemetry
