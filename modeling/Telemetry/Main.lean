import Telemetry.CommandLine

/-!
# The program

Reads the configuration, waits for each tick, measures each step and prints.
What is decided on the way is decided elsewhere.
-/
namespace Telemetry.CommandLine

/-- A run in real time. -/
abbrev Live := ExceptT Fault (StateT (App Unit (Uniform Mixer)) IO)

/-- The text of a file, or why there is none. -/
def readText (path : String) : IO (Except FileProblem String) := do
  try
    let bytes ← IO.FS.readBinFile path
    match String.fromUTF8? bytes with
    | some text => return .ok text
    | none => return .error .notText
  catch failure =>
    match failure with
    | .noFileOrDirectory .. => return .error .missing
    | .inappropriateType .. => return .error .directory
    | other => return .error (.other (toString other))

/-- The configuration that the arguments ask for. -/
def configuration (args : List String) : IO (Except Fault Config) := do
  match args with
  | path :: _ => return Config.ofFile path (← readText path)
  | [] => return .ok Config.dashboard

/-- A number that differs from run to run. -/
def chance : IO UInt64 := do
  let bytes ← IO.getRandomBytes 8
  return bytes.foldl (fun word byte => word * 256 + byte.toUInt64) 0

/-- Print the lines that are waiting. -/
def flushPrinted : Live Unit := do
  let app ← get
  for line in app.outside.printed do
    IO.println line
  set { app with outside := { app.outside with printed := #[] } }

/-- One measured step. -/
def liveStep : Live Unit := do
  let started ← IO.monoNanosNow
  let (outcome, after) := (Session.step : Attempt (App Unit (Uniform Mixer)) TickReport).run (← get)
  set after
  match outcome with
  | .error fault => throw fault
  | .ok _ =>
    let finished ← IO.monoNanosNow
    let took := (Span.ofNanos? (finished - started)).getD .zero
    let (_, recorded) := (App.record took : Attempt (App Unit (Uniform Mixer)) Unit).run (← get)
    set recorded
    flushPrinted

/-- Make a step each time one falls due. A step that comes late moves the later
ones with it. -/
partial def drive (timer : Timer) (maxTicks : Option Nat) (due : Nat) (phase : Phase) :
    Live Summary := do
  match phase with
  | .over summary => return summary
  | .waiting _ =>
    let now ← IO.monoMsNow
    if now < due then IO.sleep (UInt32.ofNat (due - now))
    let next ← phase.advance maxTicks liveStep .tick
    drive timer maxTicks (max now due + timer.period) next

/-- Report a fault and give up. -/
def fail (fault : Fault) : IO UInt32 := do
  IO.eprintln (fault.category.code ++ ": " ++ fault.message)
  return 1

/-- Drive an application to its end and print the metrics of the run. A run
without a timer breaks off. -/
def complete (pace : Pace) (app : App Unit (Uniform Mixer)) : IO UInt32 := do
  let some timer := Timer.every? pace.period
    | IO.eprintln "the period of a run must not be zero"
      return 101
  let begun ← IO.monoMsNow
  let (outcome, final) ← (drive timer pace.maxTicks begun (.after pace.maxTicks 0)).run app
  match outcome with
  | .error fault => fail fault
  | .ok _ =>
    for line in (output final).metrics do
      IO.println line
    return 0

/-- Run the command. -/
def start (args : List String) : IO UInt32 := do
  match ← configuration args with
  | .error fault => fail fault
  | .ok config =>
    match App.ofConfig config (generator config.pace (← chance)) () with
    | .error fault => fail fault
    | .ok app => complete config.pace app

end Telemetry.CommandLine

/-- The program. -/
def main (args : List String) : IO UInt32 := Telemetry.CommandLine.start args
