import Telemetry.Formula
import Telemetry.Proofs.DerivationTurns
import Telemetry.Proofs.EngineLedger

/-!
# The running average keeps a running mean

A `Statistic` keeps a count and a mean and takes one sample after another. The
running average of a channel keeps neither: at each evaluation it finds the
count and the mean in what its derivation has yielded before, and hands the next
mean to the engine, which may refuse it as not finite. The two agree turn by
turn. An evaluation is a sample, a reading that is not finite is passed over by
both, a recomputation that was refused is nothing to either, and a reset empties
both.

They part only where a mean is not finite: the statistic then keeps it, and the
derivation goes on from the last mean that was a number. Nothing else about the
arithmetic matters. So the agreement is proved for any recurrence, of which
`Statistic.next` is one.
-/
namespace Telemetry

/-- The running average, with some recurrence in place of the usual one. -/
def Formula.averageBy (next : Float → Nat → Float → Float) (channel : String)
    (context : Context) : Value :=
  match context.reading channel with
  | some reading =>
    if reading.isFinite then
      .ofFloat (next (context.lastNumber.getD 0) (context.samples + 1) reading)
    else .undefined .nonFinite
  | none => .undefined .missingInput

/-- The running average is the one with the usual recurrence, and what holds for
any recurrence holds for it. -/
theorem Formula.compute_runningAverage (channel : String) :
    (Formula.runningAverage channel).compute = averageBy Statistic.next channel := rfl

/-- A float that was made a value is normal already, since making it a value
replaces what is not finite. -/
theorem Value.normalize_ofFloat (number : Float) :
    (Value.ofFloat number).normalize = .ofFloat number := by
  by_cases finite : number.isFinite = true <;> simp [Value.ofFloat, Value.normalize, finite]

namespace Statistic

/-- Taking a sample in, with some recurrence in place of the usual one. -/
def pushBy (next : Float → Nat → Float → Float) (state : Statistic) (sample : Float) : Statistic :=
  if sample.isFinite then ⟨state.count + 1, next state.mean (state.count + 1) sample⟩ else state

/-- A statistic takes samples in by the usual recurrence as well. -/
theorem push_eq_pushBy : push = pushBy next := rfl

/-- A statistic after a turn: the reading of the channel is pushed, or all is
forgotten. -/
def after (push : Statistic → Float → Statistic) (channel : String) (state : Statistic) :
    Turn → Statistic
  | .derived snapshot _ =>
    match snapshot.get? channel with
    | some reading => push state reading
    | none => state
  | .reset => empty

/-- The statistic of a channel after turns. -/
def through (push : Statistic → Float → Statistic) (channel : String) (turns : List Turn) :
    Statistic :=
  turns.foldl (after push channel) empty

/-- A further turn acts on the statistic that the turns before it have left. -/
theorem through_append (push : Statistic → Float → Statistic) (channel : String)
    (past : List Turn) (turn : Turn) :
    through push channel (past ++ [turn]) =
      after push channel (through push channel past) turn := by
  simp [through]

end Statistic

namespace Derivation

/-- A derivation has yielded as many numbers as a statistic has taken in, and
the last of them is the mean, or zero as long as there is none. -/
structure Averages (statistic : Statistic) (derivation : Derivation) : Prop where
  samples : derivation.yielded = statistic.count
  mean : (derivation.previous.bind Metric.lastNumber).getD 0 = statistic.mean

/-- Without a past both are empty: nothing was yielded, and the mean of no
samples reads as zero. -/
theorem averages_empty {derivation : Derivation} (unused : derivation.previous = none) :
    derivation.Averages .empty where
  samples := by rw [yielded, unused]; rfl
  mean := by rw [unused]; rfl

section Evaluation

variable {next : Float → Nat → Float → Float} {channel : String} {statistic : Statistic}
  {derivation : Derivation} {snapshot : Snapshot} {reading : Float}

/-- The formula finds the count and the mean of the statistic in what its
derivation has yielded. So its value is the next mean, or undefined where that
is not finite. -/
theorem Averages.value (averages : derivation.Averages statistic)
    (formula : derivation.compute = Formula.averageBy next channel)
    (declared : channel ∈ derivation.dependsOn) (read : snapshot.get? channel = some reading) :
    (derivation.evaluate snapshot).value =
      if reading.isFinite then .ofFloat (next statistic.mean (statistic.count + 1) reading)
      else .undefined .nonFinite := by
  let context := Context.view snapshot derivation.dependsOn derivation.previous
  have seen : context.reading channel = some reading := by
    simp [context, Context.view, declared, read]
  have count : context.samples = statistic.count := by
    rw [← averages.samples]
    exact derivation.samples_view snapshot derivation.dependsOn
  have mean : context.lastNumber.getD 0 = statistic.mean := averages.mean
  have value : (derivation.evaluate snapshot).value =
      (Formula.averageBy next channel context).normalize := by
    rw [← formula]
    rfl
  rw [value, Formula.averageBy, seen, count, mean]
  by_cases finite : reading.isFinite = true
  · simp only [if_pos finite, Value.normalize_ofFloat]
  · simp only [if_neg finite, Value.normalize]

/-- An evaluation does what a push does, as long as the mean stays finite. A
reading that is not finite is passed over by both, and any other makes the new
mean the last number. -/
theorem averages_derived (averages : derivation.Averages statistic)
    (formula : derivation.compute = Formula.averageBy next channel)
    (declared : channel ∈ derivation.dependsOn) (read : snapshot.get? channel = some reading)
    (finite : (statistic.pushBy next reading).mean.isFinite = true) :
    (derivation.remember snapshot).Averages (statistic.pushBy next reading) := by
  have value := averages.value formula declared read
  have lastNumber := derivation.lastNumber_evaluate snapshot
  by_cases sound : reading.isFinite = true
  · have pushed : statistic.pushBy next reading =
        ⟨statistic.count + 1, next statistic.mean (statistic.count + 1) reading⟩ := if_pos sound
    rw [pushed] at finite ⊢
    -- Were the mean not finite, the derivation would yield nothing and the two would part.
    rw [if_pos sound, Value.ofFloat, if_pos finite] at value
    rw [value] at lastNumber
    constructor
    · rw [yielded_remember, value, ← averages.samples]
      rfl
    · rw [remember, Option.bind_some, lastNumber]
      rfl
  · have pushed : statistic.pushBy next reading = statistic := if_neg sound
    rw [if_neg sound] at value
    rw [value] at lastNumber
    rw [pushed]
    constructor
    · rw [yielded_remember, value, ← averages.samples]
      rfl
    · rw [remember, Option.bind_some, lastNumber, ← averages.mean]
      rfl

end Evaluation

end Derivation

namespace Engine

/-- A derivation with the formula of a running average, and what it shows after
turns: every evaluation had a reading, and where every mean so far was finite,
it averages. -/
structure Averaging (next : Float → Nat → Float → Float) (channel : String) (past : List Turn)
    (derivation : Derivation) : Prop where
  formula : derivation.compute = Formula.averageBy next channel
  declared : channel ∈ derivation.dependsOn
  present : ∀ snapshot metrics, .derived snapshot metrics ∈ past →
    snapshot.contains channel = true
  averages : (∀ earlier, earlier <+: past →
      (Statistic.through (.pushBy next) channel earlier).mean.isFinite = true) →
    derivation.Averages (Statistic.through (.pushBy next) channel past)

section Runs

variable {next : Float → Nat → Float → Float} {channel : String} {past : List Turn}
  {derivation : Derivation}

/-- A derivation that was just registered with the formula is averaging, no turn
having been taken. -/
theorem averaging_nil (formula : derivation.compute = Formula.averageBy next channel)
    (declared : channel ∈ derivation.dependsOn) (unused : derivation.previous = none) :
    Averaging next channel [] derivation where
  formula := formula
  declared := declared
  present := fun _ _ member => absurd member List.not_mem_nil
  averages := fun _ => Derivation.averages_empty unused

/-- An evaluation needs a reading, which is then pushed. The engine has made
sure of it, for the channel is declared and the snapshot covers what is
declared. -/
theorem averaging_derived (averaging : Averaging next channel past derivation)
    {snapshot : Snapshot} (metrics : Metrics)
    (present : ∀ channel ∈ derivation.dependsOn, snapshot.contains channel = true) :
    Averaging next channel (past ++ [.derived snapshot metrics])
      (derivation.remember snapshot) := by
  have here := present channel averaging.declared
  refine ⟨averaging.formula, averaging.declared, ?_, ?_⟩
  · intro other listed member
    rcases List.mem_append.mp member with former | new
    · exact averaging.present other listed former
    · cases List.mem_singleton.mp new
      exact here
  · intro finite
    obtain ⟨reading, read⟩ := Option.isSome_iff_exists.mp here
    have before : derivation.Averages (Statistic.through (.pushBy next) channel past) :=
      averaging.averages fun earlier first => finite earlier (first.trans (List.prefix_append _ _))
    have now := finite _ List.prefix_rfl
    have pushed : Statistic.through (.pushBy next) channel (past ++ [.derived snapshot metrics]) =
        (Statistic.through (.pushBy next) channel past).pushBy next reading := by
      rw [Statistic.through_append, Statistic.after, read]
    rw [pushed] at now ⊢
    exact Derivation.averages_derived before averaging.formula averaging.declared read now

/-- A reset empties both, whatever the mean was. Agreement does not have to be
known before the reset to hold behind it. -/
theorem averaging_reset (averaging : Averaging next channel past derivation) :
    Averaging next channel (past ++ [.reset]) derivation.renew := by
  refine ⟨averaging.formula, averaging.declared, ?_, ?_⟩
  · intro snapshot metrics member
    rcases List.mem_append.mp member with former | new
    · exact averaging.present snapshot metrics former
    · cases List.mem_singleton.mp new
  · intro _
    rw [Statistic.through_append]
    exact Derivation.averages_empty rfl

/-- The agreement along a run, for any recurrence. The two kinds of turns carry
it, and calls that bring no turn do not touch the derivation. -/
theorem averaging_run {engine registered : Engine} {name : String}
    (accepted : engine.registerDerivation name [channel] (Formula.averageBy next channel) =
      .ok registered)
    (calls : List Call) :
    ∃ final, (run calls registered).derivation name = .ok final ∧
      Averaging next channel (along perform (turns name) calls registered) final := by
  refine derivation_run (Averaging next channel) ?_ averaging_reset
    (derivation_of_registered accepted) (averaging_nil rfl (by simp [firstOccurrences]) rfl) calls
  intro past derivation snapshot metrics averaging _ present
  exact averaging_derived averaging metrics present

end Runs

/-- The running average of a channel is its running mean. Whatever calls follow
its registration, as long as every mean so far was finite, the derivation has
yielded as many numbers as a statistic has counted that took the readings of the
recomputations in, one by one, and was emptied at each reset. The last number
yielded, or zero if there is none, is the mean of that statistic, bit for
bit.

The two agree turn by turn for any recurrence, and both use the usual one. -/
theorem running_average_is_mean {engine registered : Engine} {name channel : String}
    (accepted : engine.registerDerivation name [channel] (Formula.runningAverage channel).compute =
      .ok registered)
    {calls : List Call}
    (finite : ∀ earlier, earlier <+: along perform (turns name) calls registered →
      (Statistic.through .push channel earlier).mean.isFinite = true) :
    let turns := along perform (turns name) calls registered
    let statistic := Statistic.through .push channel turns
    (∀ snapshot metrics, .derived snapshot metrics ∈ turns → snapshot.contains channel = true) ∧
      ∃ previous, (run calls registered).previous name = .ok previous ∧
        (previous.map Metric.samples).getD 0 = statistic.count ∧
        (previous.bind Metric.lastNumber).getD 0 = statistic.mean := by
  rw [Formula.compute_runningAverage] at accepted
  rw [Statistic.push_eq_pushBy] at finite ⊢
  intro turns statistic
  obtain ⟨final, held, averaging⟩ := averaging_run accepted calls
  have averages := averaging.averages finite
  exact ⟨averaging.present, final.previous, previous_of_derivation held, averages.samples,
    averages.mean⟩

/-- A reset, a reading that is not finite and a refused recomputation on the way
to the mean of four and six. -/
theorem running_average_is_mean_oven :
    let average : Derivation := ⟨"mean", ["oven"], (Formula.runningAverage "oven").compute, none⟩
    let registered : Engine := { derivations := [average] }
    let calls : List Call := [.recompute (.ofPairs 1 [("oven", 9)]), .resetDerivation "mean",
      .recompute (.ofPairs 2 [("oven", 4)]), .recompute (.ofPairs 3 [("oven", 1 / 0)]),
      .recompute (.ofPairs 4 [("attic", 7)]), .recompute (.ofPairs 5 [("oven", 6)])]
    Engine.registerDerivation {} "mean" ["oven"] average.compute = .ok registered ∧
      (∀ earlier, earlier <+: along perform (turns "mean") calls registered →
        (Statistic.through .push "oven" earlier).mean.isFinite = true) ∧
      ∃ previous, (run calls registered).previous "mean" = .ok previous ∧
        (previous.map Metric.samples).getD 0 = 2 ∧
        (previous.bind Metric.lastNumber).getD 0 = 5 := by
  intro average registered calls
  have accepted : Engine.registerDerivation {} "mean" ["oven"] average.compute =
    .ok registered := rfl
  have means : ∀ count ≤ 5, (Statistic.through .push "oven"
      ((along perform (turns "mean") calls registered).take count)).mean.isFinite = true := by
    decide +kernel
  have finite : ∀ earlier, earlier <+: along perform (turns "mean") calls registered →
      (Statistic.through .push "oven" earlier).mean.isFinite = true := by
    intro earlier first
    rw [List.prefix_iff_eq_take.mp first]
    exact means _ first.length_le
  have count : (Statistic.through .push "oven"
      (along perform (turns "mean") calls registered)).count = 2 := by decide +kernel
  have mean : (Statistic.through .push "oven"
      (along perform (turns "mean") calls registered)).mean = 5 := by decide +kernel
  have shown := (running_average_is_mean accepted finite).2
  rw [count, mean] at shown
  exact ⟨accepted, finite, shown⟩

end Engine

end Telemetry
