import Telemetry.Channel
import Telemetry.Formula
import Telemetry.Rule

/-!
# Configurations

A configuration says which channels, formulas, rules and alerts a simulation
starts with and how it is driven. `Config.check` looks at each part on its own
and reports the first problem in a fixed order. Whether names are unique and
refer to one another is found out when the parts are registered.
-/
namespace Telemetry

/-- How a simulation is driven. -/
structure Pace where
  /-- Milliseconds from one tick to the next. -/
  period : Nat := 1000
  /-- Stop after this many ticks. -/
  maxTicks : Option Nat := none
  /-- What the walk starts from, for a run that can be repeated. -/
  seed : Option UInt64 := none
  /-- Whether every snapshot is printed as a line of JSON. -/
  jsonSnapshots : Bool := false

namespace Pace

/-- The shortest period in milliseconds. -/
def leastPeriod : Nat := 10

/-- The longest period in milliseconds. -/
def greatestPeriod : Nat := 60000

/-- Refuse a period out of range and a run without ticks. -/
def check (pace : Pace) : Except Fault Unit :=
  if pace.period < leastPeriod ∨ greatestPeriod < pace.period then
    .error (.periodOutOfRange leastPeriod greatestPeriod)
  else if pace.maxTicks = some 0 then .error .noTicksAllowed
  else .ok ()

end Pace

/-- A derivation of a configuration. -/
structure NamedFormula where
  name : String
  formula : Formula

/-- An alert that is raised at the start. -/
structure StartupAlert where
  name : String
  message : String
  severity : Severity

/-- All that a simulation starts with. -/
structure Config where
  version : Nat
  pace : Pace := {}
  channels : List ChannelSpec
  derivations : List NamedFormula := []
  rules : List Rule := []
  alerts : List StartupAlert := []

namespace Config

/-- The version that is understood. -/
def supportedVersion : Nat := 1

/-- Check each part in turn; the first problem is reported. -/
def check (config : Config) : Except Fault Unit := do
  if config.version ≠ supportedVersion then
    throw (.unsupportedVersion config.version supportedVersion)
  if config.channels.isEmpty then throw .noChannels
  config.channels.forM ChannelSpec.check
  config.derivations.forM fun derivation => derivation.formula.check derivation.name
  config.rules.forM Rule.check
  config.pace.check

end Config

end Telemetry
