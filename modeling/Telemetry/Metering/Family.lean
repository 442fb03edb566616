import Telemetry.Metering.Exposition
import Telemetry.Metering.Label

/-!
# Families of series

A family keeps one value for each key that has been touched. It is shown as a
header with the family's type, followed by the lines of its series in order.
-/
namespace Telemetry.Metering

/-- Values by key, in the order in which the keys were first touched. -/
structure Family (α : Type) where
  entries : List (Key × α) := []

/-- Change the value of a key, starting from `initial` if it has none. -/
def touch {α : Type} (key : Key) (initial : α) (change : α → α) :
    List (Key × α) → List (Key × α)
  | [] => [(key, change initial)]
  | (other, value) :: rest =>
    if other = key then (other, change value) :: rest
    else (other, value) :: touch key initial change rest

namespace Family

variable {α : Type}

/-- The value of a set of labels. -/
def get? (family : Family α) (labels : List Label) : Option α :=
  family.entries.lookup (Key.ofLabels labels)

/-- Change the value of a set of labels. -/
def update (family : Family α) (labels : List Label) (initial : α) (change : α → α) :
    Family α :=
  ⟨touch (Key.ofLabels labels) initial change family.entries⟩

/-- The lines of a family whose series have `height` rows each. -/
def lines (family : Family α) (name type : String) (height : Nat)
    (series : Key → α → List String) : List String :=
  arrange height (header name type :: family.entries.flatMap fun (key, value) => series key value)

end Family

/-- A family of counts, which wrap at the size of a 64-bit word. -/
abbrev Counters := Family UInt64

namespace Counters

/-- Add to a count. A series appears even when nothing is added. -/
def add (counters : Counters) (labels : List Label) (amount : UInt64) : Counters :=
  counters.update labels 0 (· + amount)

/-- Add one to a count. -/
def increment (counters : Counters) (labels : List Label) : Counters := counters.add labels 1

/-- A count; zero for a series that was never touched. -/
def get (counters : Counters) (labels : List Label) : UInt64 := (counters.get? labels).getD 0

/-- The lines of a family of counts. -/
def lines (counters : Counters) (name : String) : List String :=
  Family.lines counters name "counter" 1 fun key count =>
    [key.series name ++ " " ++ toString count.toNat]

end Counters

end Telemetry.Metering
