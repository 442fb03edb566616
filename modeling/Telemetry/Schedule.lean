import Telemetry.App

/-!
# Driving an application

A run first makes the timer that it waits on. There is no timer of no period,
and a run that asks for one breaks off before it has waited or made a step. From
then on a run is a sequence of signals: a tick falls due, or a shutdown is
requested. Every tick makes one step. The limit on the number of ticks is looked
at before each wait, so a run that has made its last step stops without waiting
for a signal. A run stands at a `Phase`; what a step does is left open, so that
the same rules drive a run in real time and one on paper.
-/
namespace Telemetry

/-- What a run waits for. -/
inductive Signal where
  | tick
  | shutdown
deriving DecidableEq, Repr

/-- Why a run stopped. -/
inductive StopReason where
  | maxTicks
  | shutdown
deriving DecidableEq, Repr

/-- The word for the reason. -/
def StopReason.name : StopReason → String
  | maxTicks => "max_ticks"
  | shutdown => "shutdown"

/-- How a run ended. -/
structure Summary where
  ticks : Nat
  stopped : StopReason
deriving DecidableEq, Repr

/-- Where a run stands. -/
inductive Phase where
  /-- Waiting, after so many ticks. -/
  | waiting (ticks : Nat)
  | over (summary : Summary)
deriving DecidableEq, Repr

namespace Phase

/-- The phase after so many ticks, by the limit. -/
def after (maxTicks : Option Nat) (ticks : Nat) : Phase :=
  if maxTicks.any (· ≤ ticks) then .over ⟨ticks, .maxTicks⟩ else .waiting ticks

/-- React to a signal. A run that is over ignores it. -/
def advance {m : Type → Type} [Monad m] (maxTicks : Option Nat) (step : m Unit) :
    Phase → Signal → m Phase
  | .over summary, _ => pure (.over summary)
  | .waiting ticks, .shutdown => pure (.over ⟨ticks, .shutdown⟩)
  | .waiting ticks, .tick => do
    step
    return after maxTicks (ticks + 1)

/-- React to signals one after another. -/
def run {m : Type → Type} [Monad m] (maxTicks : Option Nat) (step : m Unit) :
    Phase → List Signal → m Phase
  | phase, [] => pure phase
  | phase, signal :: rest => do
    let next ← advance maxTicks step phase signal
    run maxTicks step next rest

end Phase

/-- What ticks fall due by: so many milliseconds from one to the next, and at
least one. -/
structure Timer where
  period : Nat
  positive : 0 < period

/-- A timer of a period. None of no period can be made. -/
def Timer.every? (period : Nat) : Option Timer :=
  if positive : 0 < period then some ⟨period, positive⟩ else none

/-- Drive a run at a pace, by the signals that its timer gives. Without a timer
the run breaks off before the first of them, whatever its limit is. -/
def Pace.drive? {m : Type → Type} [Monad m] (pace : Pace) (step : m Unit)
    (signals : Timer → List Signal) : Option (m Phase) :=
  (Timer.every? pace.period).map fun timer =>
    Phase.run pace.maxTicks step (.after pace.maxTicks 0) (signals timer)

/-- A clock that starts at zero. Ticks fall due at multiples of the timer's
period; a shutdown is due from a given moment on and wins over a tick of the
same moment. -/
structure Clock where
  timer : Timer
  shutdown : Option Nat

namespace Clock

/-- The signal at the `n`-th multiple of the period. -/
def signal (clock : Clock) (n : Nat) : Signal :=
  if clock.shutdown.any (· ≤ n * clock.timer.period) then .shutdown else .tick

/-- How many signals settle a run: those up to the shutdown, or up to the
limit. -/
def enough (clock : Clock) (maxTicks : Option Nat) : Nat :=
  match clock.shutdown, maxTicks with
  | none, none => 0
  | none, some limit => limit
  | some moment, none => moment / clock.timer.period + 2
  | some moment, some limit => min limit (moment / clock.timer.period + 2)

/-- The signals of a run. -/
def signals (clock : Clock) (maxTicks : Option Nat) : List Signal :=
  (List.range (clock.enough maxTicks)).map clock.signal

end Clock

namespace App

variable {ω ρ : Type} [Source ρ]

/-- Drive an application by a clock, with steps that take a given time. None is
a run that breaks off at its start, for want of a timer. -/
def run? (pace : Pace) (shutdown : Option Nat) (took : Span) : Option (Attempt (App ω ρ) Phase) :=
  let step : Attempt (App ω ρ) Unit := do
    let _ ← App.step took
  pace.drive? step fun timer => Clock.signals ⟨timer, shutdown⟩ pace.maxTicks

end App

end Telemetry
