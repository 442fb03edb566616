import Telemetry.Config

/-!
# The built-in dashboard

A vehicle dashboard, for runs without a configuration of their own. Seven
channels walk around the readings of a car on the road; the two distance
counters stand still, because a walk would also take them backwards.
-/
namespace Telemetry.Config

/-- The channels of the dashboard. The fuel level walks both ways; it drains
steadily only under a source that always draws -1. -/
def dashboardChannels : List ChannelSpec :=
  [⟨"speed", 65.5, 0, 200, 5⟩,
    ⟨"engine_rpm", 2450, 800, 6000, 100⟩,
    ⟨"fuel_level", 78.5, 0, 100, 0.01⟩,
    ⟨"engine_temperature", 92.3, -40, 150, 0.5⟩,
    ⟨"oil_pressure", 2.8, 0, 10, 0.05⟩,
    ⟨"odometer", 156789, 0, 10000000, 0⟩,
    ⟨"trip_meter", 423, 0, 1000000, 0⟩]

/-- Consumption in litres for a hundred kilometres, range in kilometres at 8.2
litres for a hundred on a tank of fifty, the mean speed, and engine speed over
speed. -/
def dashboardDerivations : List NamedFormula :=
  [⟨"instant_consumption", .linear "speed" 0.03 6.5⟩,
    ⟨"range_estimate", .linear "fuel_level" 6.097560975609756 0⟩,
    ⟨"average_speed", .runningAverage "speed"⟩,
    ⟨"rpm_per_kmh", .calculator .divide "engine_rpm" (some "speed")⟩]

/-- The warning lights of the dashboard. -/
def dashboardRules : List Rule :=
  [⟨"fuel_low", "fuel_level", .below, 10, .warning, "Fuel level critical"⟩,
    ⟨"engine_overheat", "engine_temperature", .above, 110, .critical,
      "Engine temperature too high"⟩,
    ⟨"oil_pressure_low", "oil_pressure", .below, 1, .error, "Oil pressure low"⟩,
    ⟨"rpm_redline", "engine_rpm", .atLeast, 5500, .warning, "Engine speed near redline"⟩]

/-- The dashboard, with one tick per second and a flat tyre to begin with. -/
def dashboard : Config where
  version := supportedVersion
  channels := dashboardChannels
  derivations := dashboardDerivations
  rules := dashboardRules
  alerts := [⟨"tire_pressure", "Front left tire pressure low", .warning⟩]

end Telemetry.Config
