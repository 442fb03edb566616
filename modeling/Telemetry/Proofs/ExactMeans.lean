import Mathlib.Algebra.BigOperators.Group.List.Basic
import Mathlib.Data.Rat.Cast.Defs
import Mathlib.Tactic.FieldSimp
import Mathlib.Tactic.Ring
import Telemetry.RunningMean

/-!
# In exact arithmetic a running mean is the mean

The recurrence moves the mean by a part of the distance to each new sample, and
never forms a sum. In exact arithmetic it keeps one all the same: the count
times the mean is the sum of all samples, and each sample adds itself to it. A
state that has seen a sample is determined by its count and this total. So it
does not matter where the count and the mean have come from, in what order
samples are taken in, or whether they are taken in at one go.

The recurrence is the one that readings are averaged by. With 64-bit numbers
each of its three operations rounds, and none of the equations here need hold.
-/
namespace Telemetry.RunningMean

/-- Take samples in, one after another. -/
def absorbAll {α : Type} [Add α] [Sub α] [Div α] (ofCount : Nat → α) (state : RunningMean α)
    (samples : List α) : RunningMean α :=
  samples.foldl (absorb ofCount) state

/-- Readings are taken in like this, those that are not finite left out. So what
is shown of the recurrence is about the one that runs, in another arithmetic. -/
theorem extend_eq_absorbAll (statistic : Statistic) (readings : List Float) :
    statistic.extend readings =
      absorbAll Float.ofNat statistic (readings.filter Float.isFinite) := by
  rw [absorbAll, List.foldl_filter]
  rfl

/-- Every sample is counted, in any arithmetic, for the count does not depend on
the mean. -/
theorem count_absorbAll {α : Type} [Add α] [Sub α] [Div α] (ofCount : Nat → α)
    (state : RunningMean α) (samples : List α) :
    (absorbAll ofCount state samples).count = state.count + samples.length := by
  induction samples generalizing state with
  | nil => rfl
  | cons sample rest inductionHypothesis =>
    have first : absorbAll ofCount state (sample :: rest) =
        absorbAll ofCount (state.absorb ofCount sample) rest := rfl
    have counted : (state.absorb ofCount sample).count = state.count + 1 := rfl
    rw [first, inductionHypothesis, counted, List.length_cons]
    omega

/-- The sum of the samples that a count and a mean stand for. -/
def total (state : RunningMean ℚ) : ℚ := state.count * state.mean

/-- A sample adds itself to the total. The mean moves by the distance over the
new count, and the new count times this is the distance. -/
theorem total_absorb (state : RunningMean ℚ) (sample : ℚ) :
    (state.absorb Nat.cast sample).total = state.total + sample := by
  have nonzero : ((state.count + 1 : ℕ) : ℚ) ≠ 0 := Nat.cast_ne_zero.mpr (Nat.succ_ne_zero _)
  calc (state.absorb Nat.cast sample).total
      = ((state.count + 1 : ℕ) : ℚ) *
          (state.mean + (sample - state.mean) / ((state.count + 1 : ℕ) : ℚ)) := rfl
    _ = ((state.count + 1 : ℕ) : ℚ) * state.mean + (sample - state.mean) := by
        rw [mul_add, mul_div_cancel₀ _ nonzero]
    _ = state.total + sample := by
        rw [total]
        push_cast
        ring

/-- So samples add their sum to the total, by induction along the list. -/
theorem total_absorbAll (state : RunningMean ℚ) (samples : List ℚ) :
    (absorbAll Nat.cast state samples).total = state.total + samples.sum := by
  induction samples generalizing state with
  | nil => rw [List.sum_nil, add_zero]; rfl
  | cons sample rest inductionHypothesis =>
    have first : absorbAll Nat.cast state (sample :: rest) =
        absorbAll Nat.cast (state.absorb Nat.cast sample) rest := rfl
    rw [first, inductionHypothesis, total_absorb, List.sum_cons, add_assoc]

/-- Where there is a sample, the mean is the total over the count. Without one
it may be anything, since the total is then zero whatever the mean. -/
theorem mean_eq_total_div {state : RunningMean ℚ} (positive : 0 < state.count) :
    state.mean = state.total / state.count := by
  have nonzero : (state.count : ℚ) ≠ 0 := Nat.cast_ne_zero.mpr positive.ne'
  rw [total, mul_div_cancel_left₀ _ nonzero]

/-- So two states that have seen samples are one if their counts and totals are:
their means are then the same quotient. -/
theorem eq_of_total {first second : RunningMean ℚ} (positive : 0 < first.count)
    (sameCount : first.count = second.count) (sameTotal : first.total = second.total) :
    first = second := by
  have sameMean : first.mean = second.mean := by
    rw [mean_eq_total_div positive, mean_eq_total_div (sameCount ▸ positive), sameCount, sameTotal]
  cases first
  cases second
  cases sameCount
  cases sameMean
  rfl

/-- Samples may be taken in in any order, as neither their number nor their sum
depends on it. -/
theorem absorbAll_perm {samples others : List ℚ} (reordered : samples.Perm others)
    (state : RunningMean ℚ) :
    absorbAll Nat.cast state samples = absorbAll Nat.cast state others := by
  cases samples with
  | nil => rw [List.nil_perm.mp reordered]
  | cons sample rest =>
    apply eq_of_total
    · rw [count_absorbAll, List.length_cons]
      omega
    · rw [count_absorbAll, count_absorbAll, reordered.length_eq]
    · rw [total_absorbAll, total_absorbAll, reordered.sum_eq]

/-- No samples yet; the mean then reads zero. -/
def blank : RunningMean ℚ := ⟨0, 0⟩

/-- Two means made one, each weighted by its count. -/
def combine (first second : RunningMean ℚ) : RunningMean ℚ where
  count := first.count + second.count
  mean := (first.count * first.mean + second.count * second.mean) / (first.count + second.count)

/-- Where there is a sample, combining adds the totals. The weights cancel
against the sum of the counts that the combined mean is divided by. -/
theorem total_combine {first second : RunningMean ℚ} (positive : 0 < first.count + second.count) :
    (first.combine second).total = first.total + second.total := by
  have nonzero : (first.count + second.count : ℚ) ≠ 0 := by
    rw [← Nat.cast_add]
    exact Nat.cast_ne_zero.mpr positive.ne'
  rw [total, combine, Nat.cast_add, mul_div_cancel₀ _ nonzero, total, total]

/-- Taking samples in is combining a state with the mean of the samples alone,
since both ways arrive at the same count and the same total. -/
theorem absorbAll_eq_combine {state : RunningMean ℚ} {samples : List ℚ}
    (positive : 0 < state.count + samples.length) :
    absorbAll Nat.cast state samples = state.combine (absorbAll Nat.cast blank samples) := by
  have alone : (absorbAll Nat.cast blank samples).count = samples.length := by
    rw [count_absorbAll, blank, Nat.zero_add]
  apply eq_of_total
  · rwa [count_absorbAll]
  · rw [count_absorbAll, combine, alone]
  · rw [total_combine (by rwa [alone]), total_absorbAll, total_absorbAll]
    simp [blank, total]

/-- Taken in exactly, samples lead from any count and mean to the sum of both
counts, and to the mean over all samples, those that the first mean stands for
and those that were taken in. From no samples this is their arithmetic mean. The
order of the samples makes no difference, and taking in some after others is
combining their means, weighted by their counts. Readings are taken in by the
same recurrence, those that are not finite left out.

The count and the total determine a state that has seen a sample, and each
sample adds one to the first and itself to the second. -/
theorem recurrence_is_arithmetic_mean (state : RunningMean ℚ) (samples : List ℚ) :
    let final := absorbAll Nat.cast state samples
    let alone := absorbAll Nat.cast blank samples
    final.count = state.count + samples.length ∧
      (0 < final.count → final.mean =
        (state.count * state.mean + samples.sum) / (state.count + samples.length)) ∧
      alone.count = samples.length ∧
      alone.mean = samples.sum / samples.length ∧
      (∀ others, samples.Perm others → absorbAll Nat.cast state others = final) ∧
      (0 < final.count → final = state.combine alone) ∧
      (∀ others, absorbAll Nat.cast alone others =
        alone.combine (absorbAll Nat.cast blank others)) ∧
      ∀ (statistic : Statistic) (readings : List Float), statistic.extend readings =
        absorbAll Float.ofNat statistic (readings.filter Float.isFinite) := by
  intro final alone
  have count : final.count = state.count + samples.length := count_absorbAll Nat.cast state samples
  have aloneCount : alone.count = samples.length := by
    rw [count_absorbAll, blank, Nat.zero_add]
  refine ⟨count, ?_, aloneCount, ?_, fun others reordered => (absorbAll_perm reordered state).symm,
    ?_, ?_, extend_eq_absorbAll⟩
  · intro positive
    rw [mean_eq_total_div positive, total_absorbAll, count, Nat.cast_add, total]
  · cases samples with
    | nil => simp [alone, absorbAll, blank]
    | cons sample rest =>
      have positive : 0 < alone.count := aloneCount ▸ Nat.succ_pos _
      rw [mean_eq_total_div positive, total_absorbAll, aloneCount]
      simp [blank, total]
  · intro positive
    exact absorbAll_eq_combine (count ▸ positive)
  · intro others
    rcases Nat.eq_zero_or_pos (alone.count + others.length) with none | positive
    · -- Without any sample both sides are blank.
      rw [aloneCount, Nat.add_eq_zero_iff, List.length_eq_zero_iff, List.length_eq_zero_iff] at none
      obtain ⟨rfl, rfl⟩ := none
      simp [alone, absorbAll, blank, combine]
    · exact absorbAll_eq_combine positive

end Telemetry.RunningMean
