import Telemetry.Snapshot
import Telemetry.Value

/-!
# Derived metrics

A derivation computes a metric from the channels it declares and from its own
past. What its formula may see is a `Context`: readings of declared channels,
the previous metric and the tick. Other channels read as absent, because the
context is built that way and not by convention.

A metric remembers how many numbers its derivation has yielded and the latest of
them. Both pass over results that are undefined, which lets a formula keep a sum
or a mean across gaps.
-/
namespace Telemetry

/-- What a derivation yielded at one tick. -/
structure Metric where
  name : String
  value : Value
  /-- The tick of the snapshot it was computed from. -/
  tick : Nat
  /-- How many numbers the derivation has yielded, this one included. -/
  samples : Nat
  /-- The latest number yielded. -/
  lastNumber : Option Float

/-- The metrics of one tick, in the order in which derivations were
registered. -/
structure Metrics where
  tick : Nat
  metrics : List Metric

namespace Metrics

/-- The metric of this name. -/
def get? (metrics : Metrics) (name : String) : Option Metric :=
  metrics.metrics.find? fun metric => metric.name = name

/-- The number of this name, if it is defined. -/
def number? (metrics : Metrics) (name : String) : Option Float :=
  (metrics.get? name).bind fun metric => metric.value.number?

/-- How many metrics there are. -/
def size (metrics : Metrics) : Nat := metrics.metrics.length

end Metrics

/-- What a formula can see. -/
structure Context where
  /-- The reading of a declared channel; nothing for any other. -/
  reading : String → Option Float
  /-- What the derivation yielded last. -/
  previous : Option Metric
  tick : Nat

namespace Context

/-- The view of a snapshot through declared channels. -/
def view (snapshot : Snapshot) (declared : List String) (previous : Option Metric) : Context where
  reading := fun channel => if channel ∈ declared then snapshot.get? channel else none
  previous := previous
  tick := snapshot.tick

/-- The previous result, if it was a number. -/
def previousNumber (context : Context) : Option Float :=
  context.previous.bind fun metric => metric.value.number?

/-- The latest number yielded before, across undefined results. -/
def lastNumber (context : Context) : Option Float :=
  context.previous.bind fun metric => metric.lastNumber

/-- How many numbers were yielded before. -/
def samples (context : Context) : Nat :=
  match context.previous with
  | some metric => metric.samples
  | none => 0

end Context

/-- Each name once, at its first place. -/
def firstOccurrences : List String → List String
  | [] => []
  | name :: rest => name :: (firstOccurrences rest).filter fun other => other ≠ name

/-- A named formula over declared channels, with what it yielded last. -/
structure Derivation where
  name : String
  dependsOn : List String
  compute : Context → Value
  previous : Option Metric := none

namespace Derivation

/-- The metric for a snapshot. A number that is not finite counts as
undefined. -/
def evaluate (derivation : Derivation) (snapshot : Snapshot) : Metric :=
  let context := Context.view snapshot derivation.dependsOn derivation.previous
  let value := (derivation.compute context).normalize
  { name := derivation.name
    value := value
    tick := snapshot.tick
    samples := if value.isNumber then context.samples + 1 else context.samples
    lastNumber := value.number? <|> context.lastNumber }

end Derivation

end Telemetry
