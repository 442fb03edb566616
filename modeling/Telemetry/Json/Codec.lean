import Telemetry.Calculator
import Telemetry.Channel
import Telemetry.Event
import Telemetry.Json.Reader

/-!
# Readings, rules and reports as JSON

Records are written as objects with their fields in a fixed order. They are read
from objects with the fields in any order, or from arrays with the values in the
fixed order. A field that is missing, repeated or null is refused; so is an
unknown one, except for complex numbers, where unknown members are passed over
unread. Only the message of a rule may be left out, and is then empty.
-/
namespace Telemetry

namespace Json

/-- An object with these members in this order. The keys are texts and are
escaped here, so that any name may be a key. -/
def record (members : List (String × Json)) : Json :=
  .object (members.map fun (key, value) => (escape key, value))

/-- A value that may be absent. -/
def ofOption {α : Type} (encode : α → Json) : Option α → Json
  | some value => encode value
  | none => .null

/-- The text of a document that is a string. -/
def asText? : Json → Option String
  | .string literal => text? literal
  | _ => none

/-- A choice among names: the name itself, or an object that gives it null. -/
def choice? {α : Type} (ofName? : String → Option α) : Json → Option α
  | .string literal => (text? literal).bind ofName?
  | .object [(key, .null)] => (text? key).bind ofName?
  | _ => none

/-- The members of an object by the texts of their keys. -/
def keyed? : List (List Char × Json) → Option (List (String × Json))
  | [] => some []
  | (key, value) :: rest => do
    let name ← text? key
    let others ← keyed? rest
    return (name, value) :: others

/-- Whether no known field occurs twice and, if need be, no other occurs at
all. -/
def wellFielded (fields : List String) (strict : Bool) (members : List (String × Json)) : Bool :=
  (fields.all fun field => (members.filter fun member => member.1 = field).length ≤ 1) &&
    (!strict || members.all fun member => fields.contains member.1)

/-- The values of the fields of a record, in the fixed order. A record that is
an array gives its first fields and leaves out the last. -/
def fields? (fields : List String) (strict : Bool) : Json → Option (List (Option Json))
  | .object members => do
    let named ← keyed? members
    if wellFielded fields strict named then
      return fields.map fun field => named.lookup field
    else none
  | .array items =>
    if items.length ≤ fields.length then
      some (items.map some ++ List.replicate (fields.length - items.length) none)
    else none
  | _ => none

end Json

namespace Operation

/-- An operation by its name. -/
def toJson (operation : Operation) : Json := .ofText operation.name

/-- The operation that a document names. -/
def ofJson? (document : Json) : Option Operation := document.choice? ofName?

end Operation

namespace Severity

/-- A severity by its name. -/
def toJson (severity : Severity) : Json := .ofText severity.name

/-- The severity that a document names. -/
def ofJson? (document : Json) : Option Severity := document.choice? ofName?

end Severity

namespace Comparison

/-- A comparison by its sign. -/
def toJson (comparison : Comparison) : Json := .ofText comparison.symbol

/-- The comparison that a document names. -/
def ofJson? (document : Json) : Option Comparison := document.choice? ofSymbol?

end Comparison

namespace ChannelSpec

/-- The fields of a channel specification. -/
def fields : List String := ["name", "initial", "lower", "upper", "max_step"]

/-- A channel specification as an object. -/
def toJson (spec : ChannelSpec) : Json :=
  .record [("name", .ofText spec.name), ("initial", .ofFloat spec.initial),
    ("lower", .ofFloat spec.lower), ("upper", .ofFloat spec.upper),
    ("max_step", .ofFloat spec.maxStep)]

/-- The channel specification that a document is. -/
def ofJson? (document : Json) : Option ChannelSpec :=
  match document.fields? fields true with
  | some [some name, some initial, some lower, some upper, some maxStep] => do
    return ⟨← name.asText?, ← initial.float?, ← lower.float?, ← upper.float?, ← maxStep.float?⟩
  | _ => none

end ChannelSpec

namespace Rule

/-- The fields of a rule. -/
def fields : List String := ["name", "channel", "op", "value", "severity", "message"]

/-- A rule as an object. -/
def toJson (rule : Rule) : Json :=
  .record [("name", .ofText rule.name), ("channel", .ofText rule.channel),
    ("op", rule.comparison.toJson), ("value", .ofFloat rule.limit),
    ("severity", rule.severity.toJson), ("message", .ofText rule.message)]

/-- The rule that a document is. -/
def ofJson? (document : Json) : Option Rule :=
  match document.fields? fields true with
  | some [some name, some channel, some comparison, some limit, some severity, message] => do
    let text ←
      match message with
      | some given => given.asText?
      | none => some ""
    return ⟨← name.asText?, ← channel.asText?, ← Comparison.ofJson? comparison,
      ← limit.float?, ← Severity.ofJson? severity, text⟩
  | _ => none

end Rule

namespace Complex

/-- The fields of a complex number. -/
def fields : List String := ["re", "im"]

/-- A complex number as an object. -/
def toJson (number : Complex) : Json :=
  .record [("re", .ofFloat number.re), ("im", .ofFloat number.im)]

/-- The complex number that a document is. -/
def ofJson? (document : Json) : Option Complex :=
  match document.fields? fields false with
  | some [some re, some im] => do return ⟨← re.float?, ← im.float?⟩
  | _ => none

end Complex

/-- A result as an object with one member. -/
def Value.toJson : Value → Json
  | .number x => .record [("number", .ofFloat x)]
  | .undefined why => .record [("undefined", .ofText why.tag)]

/-- A running mean as an object. -/
def Statistic.toJson (statistic : Statistic) : Json :=
  .record [("count", .ofNat statistic.count), ("mean", .ofFloat statistic.mean)]

/-- A calculation as an object. -/
def Calculation.toJson (calculation : Calculation) : Json :=
  .record [("op", calculation.operation.toJson), ("left", .ofFloat calculation.left),
    ("right", .ofFloat calculation.right), ("value", calculation.value.toJson)]

/-- The counts of a calculator as an object. -/
def CalculatorStatistics.toJson (statistics : CalculatorStatistics) : Json :=
  .record [("total", .ofNat statistics.total), ("successful", .ofNat statistics.successful),
    ("errors", .ofNat statistics.errors),
    ("execution_secs", Statistic.toJson statistics.executionSeconds)]

/-- A snapshot as an object, its readings in the order of the names. -/
def Snapshot.toJson (snapshot : Snapshot) : Json :=
  .record [("tick", .ofNat snapshot.tick),
    ("values", .record (snapshot.readings.map fun (name, value) => (name, .ofFloat value)))]

/-- A metric as an object. -/
def Metric.toJson (metric : Metric) : Json :=
  .record [("name", .ofText metric.name), ("value", metric.value.toJson),
    ("tick", .ofNat metric.tick), ("samples", .ofNat metric.samples),
    ("last_number", .ofOption .ofFloat metric.lastNumber)]

/-- The metrics of one tick as an object. -/
def Metrics.toJson (metrics : Metrics) : Json :=
  .record [("tick", .ofNat metrics.tick), ("metrics", .array (metrics.metrics.map Metric.toJson))]

/-- A transition as an object. -/
def Transition.toJson (transition : Transition) : Json :=
  .record [("rule", transition.rule.toJson), ("state", .ofText transition.edge.name),
    ("snapshot", transition.snapshot.toJson)]

/-- An alert as an object. -/
def Alert.toJson (alert : Alert) : Json :=
  .record [("name", .ofText alert.name), ("message", .ofText alert.message),
    ("severity", alert.severity.toJson), ("raised_at", .ofOption .ofNat alert.raisedAt)]

end Telemetry
