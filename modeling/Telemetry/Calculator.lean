import Telemetry.Arithmetic
import Telemetry.Number.Exact
import Telemetry.Observer.Dispatch
import Telemetry.RunningMean
import Telemetry.Span

/-!
# The calculator

The calculator evaluates operations, rounds what is a number to its precision,
keeps count of what succeeded and of the mean execution time, and tells its
listeners of every calculation. Execution times are measured by the caller.
-/
namespace Telemetry

/-- One finished calculation. A number among the values has been rounded. -/
structure Calculation where
  operation : Operation
  left : Float
  right : Float
  value : Value

/-- What listeners of a calculator can ask for. -/
inductive CalculationKind where
  | completed
  | error
deriving DecidableEq, Repr

namespace CalculationKind

/-- Both kinds. -/
def all : List CalculationKind := [completed, error]

/-- The name of the kind. -/
def name : CalculationKind → String
  | completed => "completed"
  | error => "error"

/-- The kind with a name, if there is one. -/
def ofName? (name : String) : Option CalculationKind := all.find? fun kind => kind.name = name

end CalculationKind

/-- What listeners of a calculator are told. -/
inductive CalculationEvent where
  | completed (calculation : Calculation)
  | error (calculation : Calculation) (why : Undefined)

namespace CalculationEvent

/-- The kind of an event. -/
def kind : CalculationEvent → CalculationKind
  | completed _ => .completed
  | error _ _ => .error

/-- The calculation that an event is about. -/
def calculation : CalculationEvent → Calculation
  | completed calculation => calculation
  | error calculation _ => calculation

/-- Why there was no number. -/
def why? : CalculationEvent → Option Undefined
  | completed _ => none
  | error _ why => some why

end CalculationEvent

/-- The event that a calculation gives rise to. -/
def Calculation.event (calculation : Calculation) : CalculationEvent :=
  match calculation.value with
  | .number _ => .completed calculation
  | .undefined why => .error calculation why

/-- Counts since the last reset, and the mean execution time in seconds. -/
structure CalculatorStatistics where
  total : Nat := 0
  successful : Nat := 0
  errors : Nat := 0
  executionSeconds : Statistic := .empty

namespace CalculatorStatistics

/-- Count one calculation. -/
def record (statistics : CalculatorStatistics) (value : Value) (elapsed : Span) :
    CalculatorStatistics where
  total := statistics.total + 1
  successful := if value.isNumber then statistics.successful + 1 else statistics.successful
  errors := if value.isNumber then statistics.errors else statistics.errors + 1
  executionSeconds := Statistic.push statistics.executionSeconds elapsed.toSeconds

/-- The mean execution time as a span, if it is one: a mean past the longest
span has none. -/
def averageExecution? (statistics : CalculatorStatistics) : Option Span :=
  let mean := statistics.executionSeconds.mean
  Span.ofSeconds? (if 0 < mean then mean else 0)

end CalculatorStatistics

/-- A calculator whose listeners act on `σ`. -/
structure Calculator (σ : Type) where
  statistics : CalculatorStatistics := {}
  precision : Nat := 2
  observers : Observer.Registry CalculationKind σ (Observer.Listener CalculationEvent σ) := {}

namespace Calculator

variable {σ : Type}

/-- The most decimals a calculator rounds to. -/
def greatestPrecision : Nat := 15

/-- Evaluate, count, and tell listeners. -/
def calculate (left right : Float) (operation : Operation) (elapsed : Span) :
    StateM (Calculator σ × σ) Calculation := do
  let (calculator, outside) ← get
  let value :=
    match operation.evaluate left right with
    | .number x => .number (Number.roundTo calculator.precision x)
    | .undefined why => .undefined why
  let calculation : Calculation := ⟨operation, left, right, value⟩
  let event := calculation.event
  let counted := { calculator with statistics := calculator.statistics.record value elapsed }
  let (_, after) := calculator.observers.notify event.kind event outside
  set (counted, after)
  return calculation

/-- Start counting afresh. -/
def reset (calculator : Calculator σ) : Calculator σ := { calculator with statistics := {} }

/-- Choose how many decimals results keep. -/
def setPrecision (calculator : Calculator σ) (places : Nat) : Except Fault (Calculator σ) :=
  if greatestPrecision < places then .error (.precisionTooLarge places greatestPrecision)
  else .ok { calculator with precision := places }

end Calculator

end Telemetry
