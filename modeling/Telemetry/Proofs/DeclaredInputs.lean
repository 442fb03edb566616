import Mathlib.Data.List.Forall2
import Telemetry.Formula
import Telemetry.Proofs.DerivationTurns

/-!
# A derivation sees only what it declares

What an engine shows of one derivation is what the derivation would show if it
were alone: at each turn it is evaluated against the snapshot, or starts afresh,
and nothing that other derivations or rules do has a part in it, wherever in the
list it stands. An evaluation reads the snapshot through the declared channels
and through the tick. So two runs that agree there, turn by turn, cannot be told
apart by watching the derivation, however much the engines and the snapshots
differ elsewhere.
-/
namespace Telemetry

namespace Turn

/-- The metric that the derivation of a name reports at a turn; none at a
reset. -/
def report (name : String) : Turn → Option Metric
  | derived _ metrics => metrics.get? name
  | reset => none

/-- Two turns that differ in nothing a derivation with these channels can see:
two evaluations at one tick with the same readings of the channels, or two
resets. -/
inductive Alike (declared : List String) : Turn → Turn → Prop where
  | derived {first second : Snapshot} {metrics others : Metrics}
      (sameTick : first.tick = second.tick)
      (sameReadings : ∀ channel ∈ declared, first.get? channel = second.get? channel) :
      Alike declared (.derived first metrics) (.derived second others)
  | reset : Alike declared .reset .reset

end Turn

/-- Snapshots that agree on the tick and on the declared channels look the same
through them: every other channel reads as absent in both. -/
theorem Context.view_congr {first second : Snapshot} {declared : List String}
    (sameTick : first.tick = second.tick)
    (sameReadings : ∀ channel ∈ declared, first.get? channel = second.get? channel)
    (previous : Option Metric) :
    Context.view first declared previous = Context.view second declared previous := by
  have reading : (fun channel => if channel ∈ declared then first.get? channel else none) =
      fun channel => if channel ∈ declared then second.get? channel else none := by
    funext channel
    by_cases member : channel ∈ declared
    · rw [if_pos member, if_pos member, sameReadings channel member]
    · rw [if_neg member, if_neg member]
  unfold Context.view
  rw [reading, sameTick]

namespace Derivation

/-- A derivation after a turn. -/
def after (derivation : Derivation) : Turn → Derivation
  | .derived snapshot _ => derivation.remember snapshot
  | .reset => derivation.renew

/-- What a derivation holds after each of its turns, when it is alone. -/
def trace (derivation : Derivation) : List Turn → List (Option Metric)
  | [] => []
  | turn :: rest => (derivation.after turn).previous :: (derivation.after turn).trace rest

/-- Such snapshots give a derivation the same metric, since its formula is shown
nothing else of them. -/
theorem evaluate_congr {derivation : Derivation} {first second : Snapshot}
    (sameTick : first.tick = second.tick)
    (sameReadings : ∀ channel ∈ derivation.dependsOn, first.get? channel = second.get? channel) :
    derivation.evaluate first = derivation.evaluate second := by
  unfold evaluate
  rw [Context.view_congr sameTick sameReadings, sameTick]

/-- Turns that are alike through the declared channels leave a derivation in the
same state. The metrics of other derivations may differ, and it does not look at
them. -/
theorem after_congr {derivation : Derivation} {first second : Turn}
    (alike : Turn.Alike derivation.dependsOn first second) :
    derivation.after first = derivation.after second := by
  cases alike with
  | derived sameTick sameReadings =>
    simp only [after, remember, evaluate_congr sameTick sameReadings]
  | reset => rfl

/-- No turn changes what a derivation declares, so that one notion of being
alike serves for a whole run. -/
theorem dependsOn_after (derivation : Derivation) (turn : Turn) :
    (derivation.after turn).dependsOn = derivation.dependsOn := by
  cases turn <;> rfl

/-- Runs that are alike through the declared channels leave the same trace, turn
by turn. -/
theorem trace_congr {derivation : Derivation} {first second : List Turn}
    (alike : List.Forall₂ (Turn.Alike derivation.dependsOn) first second) :
    derivation.trace first = derivation.trace second := by
  induction first generalizing derivation second with
  | nil =>
    cases alike
    rfl
  | cons turn rest inductionHypothesis =>
    obtain ⟨other, others, here, later, rfl⟩ := List.forall₂_cons_left_iff.mp alike
    rw [← dependsOn_after derivation turn] at later
    rw [trace, trace, ← after_congr here, inductionHypothesis later]

end Derivation

namespace Engine

/-- What shows of a derivation at each of its turns: the metric reported for it,
and what the engine then holds as its previous metric. -/
def observed (name : String) (engine : Engine) (call : Call) :
    List (Option Metric × Except Fault (Option Metric)) :=
  (engine.turns name call).map fun turn =>
    (turn.report name, (engine.perform call).previous name)

/-- An engine shows of a derivation what the derivation shows alone: it reports
at each turn what it then holds. Calls that bring it no turn add nothing to
either side. -/
theorem observed_run {engine : Engine} {name : String} {derivation : Derivation}
    (held : engine.derivation name = .ok derivation) (calls : List Call) :
    along perform (observed name) calls engine =
      (derivation.trace (along perform (turns name) calls engine)).map fun metric =>
        (metric, .ok metric) := by
  induction calls generalizing engine derivation with
  | nil => rfl
  | cons call rest inductionHypothesis =>
    rw [along, along]
    rcases turns_cases held call with ⟨taken, after⟩ | ⟨taken, after⟩ |
      ⟨snapshot, metrics, taken, after, reported, _⟩
    · rw [observed, taken, inductionHypothesis after]
      rfl
    · rw [observed, taken, inductionHypothesis after, previous_of_derivation after]
      rfl
    · rw [observed, taken, inductionHypothesis after, previous_of_derivation after]
      simp only [List.map_cons, List.map_nil, Turn.report, reported]
      rfl

/-- Two engines hold a derivation in the same state, for instance newly
registered, among whatever other derivations and rules. Two runs evaluate it and
reset it at the same points, and the snapshots of each evaluation agree on the
tick and on the channels that it declares. Then the metrics reported for it and
the previous metrics held for it are the same at every point, whatever else the
calls do and the snapshots show.

What each engine shows is the trace of the derivation alone, and traces along
turns that are alike are equal. -/
theorem sees_only_declared {first second : Engine} {derivation : Derivation}
    (held : first.derivation derivation.name = .ok derivation)
    (heldToo : second.derivation derivation.name = .ok derivation) {calls others : List Call}
    (alike : List.Forall₂ (Turn.Alike derivation.dependsOn)
      (along perform (turns derivation.name) calls first)
      (along perform (turns derivation.name) others second)) :
    along perform (observed derivation.name) calls first =
      along perform (observed derivation.name) others second := by
  rw [observed_run held, observed_run heldToo, Derivation.trace_congr alike]

/-- A running average that stands first in one engine, before the double of a
reading, and last in another, after the double of another reading and beside a
rule. -/
theorem sees_only_declared_average :
    let average : Derivation := ⟨"mean", ["oven"], (Formula.runningAverage "oven").compute, none⟩
    let doubled (channel : String) : Derivation :=
      ⟨"double", [channel], (Formula.linear channel 2 0).compute, none⟩
    let first : Engine := { derivations := [average, doubled "hall"] }
    let second : Engine :=
      { derivations := [doubled "attic", average]
        watches := [⟨⟨"hot", "attic", .above, 9, .warning, ""⟩, false⟩] }
    let calls : List Call := [.recompute (.ofPairs 1 [("hall", 20), ("oven", 250)]),
      .resetDerivation "mean", .recompute (.ofPairs 2 [("hall", 21), ("oven", 240)])]
    let others : List Call := [.recompute (.ofPairs 1 [("oven", 250), ("attic", 5)]),
      .resetDerivation "mean", .watch (.ofPairs 1 [("attic", 10)]),
      .recompute (.ofPairs 2 [("oven", 240), ("attic", 7)])]
    first.derivation "mean" = .ok average ∧ second.derivation "mean" = .ok average ∧
      List.Forall₂ (Turn.Alike ["oven"]) (along perform (turns "mean") calls first)
        (along perform (turns "mean") others second) ∧
      along perform (observed "mean") calls first =
        along perform (observed "mean") others second := by
  intro average doubled first second calls others
  have held : first.derivation "mean" = .ok average := rfl
  have heldToo : second.derivation "mean" = .ok average := rfl
  have alike : List.Forall₂ (Turn.Alike average.dependsOn)
      (along perform (turns "mean") calls first) (along perform (turns "mean") others second) :=
    .cons (.derived rfl (List.forall_mem_singleton.mpr rfl))
      (.cons .reset (.cons (.derived rfl (List.forall_mem_singleton.mpr rfl)) .nil))
  exact ⟨held, heldToo, alike, sees_only_declared held heldToo alike⟩

end Engine

end Telemetry
