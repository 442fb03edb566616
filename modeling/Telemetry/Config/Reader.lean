import Telemetry.Config
import Telemetry.Yaml.Reading

/-!
# Reading configurations

A configuration is a YAML document. Every record is strict: a field that is
unknown, repeated or of the wrong kind makes the whole text unreadable, and so
does a missing one that has no value to fall back on. A text that can be read is
checked before it is used.
-/
namespace Telemetry

open Yaml (Node)
open Yaml.Node (fields? required? orElse?)

/-- A channel specification. -/
def ChannelSpec.ofNode? (node : Node) : Option ChannelSpec := do
  let fields ← node.fields? ["name", "initial", "lower", "upper", "max_step"]
  let name ← required? fields "name" Node.text?
  let initial ← required? fields "initial" Node.float?
  let lower ← required? fields "lower" Node.float?
  let upper ← required? fields "upper" Node.float?
  let maxStep ← required? fields "max_step" Node.float?
  return ⟨name, initial, lower, upper, maxStep⟩

/-- A rule; the message may be left out. -/
def Rule.ofNode? (node : Node) : Option Rule := do
  let fields ← node.fields? ["name", "channel", "op", "value", "severity", "message"]
  let name ← required? fields "name" Node.text?
  let channel ← required? fields "channel" Node.text?
  let comparison ← required? fields "op" (Node.choice? Comparison.ofSymbol?)
  let limit ← required? fields "value" Node.float?
  let severity ← required? fields "severity" (Node.choice? Severity.ofName?)
  let message ← orElse? fields "message" "" Node.text?
  return ⟨name, channel, comparison, limit, severity, message⟩

namespace Formula

/-- A linear formula; the offset is zero unless given. -/
def linearOfNode? (node : Node) : Option Formula := do
  let fields ← node.fields? ["channel", "scale", "offset"]
  let channel ← required? fields "channel" Node.text?
  let scale ← required? fields "scale" Node.float?
  let offset ← orElse? fields "offset" 0 Node.float?
  return .linear channel scale offset

/-- A quotient; the scale is one unless given. -/
def ratioOfNode? (node : Node) : Option Formula := do
  let fields ← node.fields? ["numerator", "denominator", "scale"]
  let numerator ← required? fields "numerator" Node.text?
  let denominator ← required? fields "denominator" Node.text?
  let scale ← orElse? fields "scale" 1 Node.float?
  return .ratio numerator denominator scale

/-- A running average. -/
def runningAverageOfNode? (node : Node) : Option Formula := do
  let fields ← node.fields? ["channel"]
  let channel ← required? fields "channel" Node.text?
  return .runningAverage channel

/-- A calculator operation; the right operand may be left out. -/
def calculatorOfNode? (node : Node) : Option Formula := do
  let fields ← node.fields? ["op", "left", "right"]
  let operation ← required? fields "op" (Node.choice? Operation.ofName?)
  let left ← required? fields "left" Node.text?
  let right ← orElse? fields "right" none (Node.optional? Node.text?)
  return .calculator operation left right

/-- A formula is a mapping with one entry, whose key names the shape. -/
def ofNode? : Node → Option Formula
  | .mapping [(key, body)] =>
    match key.text? with
    | some "linear" => linearOfNode? body
    | some "ratio" => ratioOfNode? body
    | some "running_average" => runningAverageOfNode? body
    | some "calculator" => calculatorOfNode? body
    | _ => none
  | _ => none

end Formula

/-- A named formula. -/
def NamedFormula.ofNode? (node : Node) : Option NamedFormula := do
  let fields ← node.fields? ["name", "kind"]
  let name ← required? fields "name" Node.text?
  let formula ← required? fields "kind" Formula.ofNode?
  return ⟨name, formula⟩

/-- An alert for the start; a warning unless a severity is given. -/
def StartupAlert.ofNode? (node : Node) : Option StartupAlert := do
  let fields ← node.fields? ["name", "message", "severity"]
  let name ← required? fields "name" Node.text?
  let message ← required? fields "message" Node.text?
  let severity ← orElse? fields "severity" .warning (Node.choice? Severity.ofName?)
  return ⟨name, message, severity⟩

/-- The pace of a run. -/
def Pace.ofNode? (node : Node) : Option Pace := do
  let fields ← node.fields? ["period_ms", "max_ticks", "seed", "json_snapshots"]
  let count := Node.unsigned? UInt64.size
  let period ← orElse? fields "period_ms" 1000 count
  let maxTicks ← orElse? fields "max_ticks" none (Node.optional? count)
  let seed ← orElse? fields "seed" none (Node.optional? count)
  let jsonSnapshots ← orElse? fields "json_snapshots" false Node.bool?
  return ⟨period, maxTicks, seed.map UInt64.ofNat, jsonSnapshots⟩

namespace Config

/-- A configuration, unchecked. -/
def ofNode? (node : Node) : Option Config := do
  let fields ← node.fields? ["version", "driver", "channels", "derivations", "thresholds", "alerts"]
  let version ← required? fields "version" (Node.unsigned? UInt32.size)
  let pace ← orElse? fields "driver" {} Pace.ofNode?
  let channels ← required? fields "channels" (Node.list? ChannelSpec.ofNode?)
  let derivations ← orElse? fields "derivations" [] (Node.list? NamedFormula.ofNode?)
  let rules ← orElse? fields "thresholds" [] (Node.list? Rule.ofNode?)
  let alerts ← orElse? fields "alerts" [] (Node.list? StartupAlert.ofNode?)
  return ⟨version, pace, channels, derivations, rules, alerts⟩

/-- Read and check a configuration. -/
def parse (source : String) : Except Fault Config :=
  match (Node.parse? source).bind ofNode? with
  | none => .error .malformedConfig
  | some config => config.check.map fun _ => config

/-- A configuration from what reading a file gave. -/
def ofFile (path : String) (content : Except FileProblem String) : Except Fault Config :=
  match content with
  | .ok source => parse source
  | .error problem => .error (.unreadable path problem)

end Config

end Telemetry
