import Telemetry.Metering.Family
import Telemetry.Number.Style

/-!
# Gauges

A gauge holds the last reading that was set.
-/
namespace Telemetry.Metering

/-- A family of readings. -/
abbrev Gauges := Family Float

namespace Gauges

/-- Set a reading. -/
def set (gauges : Gauges) (labels : List Label) (reading : Float) : Gauges :=
  gauges.update labels reading fun _ => reading

/-- The lines of a family of readings. -/
def lines (gauges : Gauges) (name : String) : List String :=
  Family.lines gauges name "gauge" 1 fun key reading =>
    [key.series name ++ " " ++ Number.text reading]

end Gauges

end Telemetry.Metering
