import Telemetry.Config.Dashboard
import Telemetry.Config.Reader
import Telemetry.Schedule

/-!
# The command

The command takes the path of a configuration, or none for the built-in
dashboard. It drives the simulation until its limit of ticks and then prints the
metrics of the run.
-/
namespace Telemetry.CommandLine

/-- What a finished run prints: lines of its own, then its metrics. -/
structure Output where
  printed : List String
  metrics : List String

/-- How a command ends that was not refused. -/
inductive Ending where
  | finished (output : Output)
  /-- A run without a limit never gets to its end. -/
  | endless
  /-- A run that cannot have a timer breaks off. -/
  | broken

/-- The generator of a run. A configuration may fix its seed. -/
def generator (pace : Pace) (chance : UInt64) : Uniform Mixer := ⟨⟨pace.seed.getD chance⟩⟩

/-- What an application has to print at the end. -/
def output {ω ρ : Type} (app : App ω ρ) : Output :=
  ⟨app.outside.printed.toList, app.outside.metrics.lines⟩

/-- Run a configuration with steps that take a given time. -/
def execute (config : Config) (chance : UInt64) (took : Span) : Except Fault Ending := do
  let app ← App.ofConfig config (generator config.pace chance) ()
  match App.run? config.pace none took with
  | none => return .broken
  | some driven =>
    match driven.run app with
    | (.error fault, _) => throw fault
    | (.ok (.over _), final) => return .finished (output final)
    | (.ok (.waiting _), _) => return .endless

end Telemetry.CommandLine
