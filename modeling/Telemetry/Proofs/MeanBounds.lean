import Telemetry.Proofs.FloatValues
import Telemetry.RunningMean

/-!
# Running means that stay finite

A statistic takes finite samples only, but its mean need not stay finite. It is
moved by a part of the difference between a sample and the mean, and that
difference is computed first: two samples far enough apart overflow it, although
their mean is an ordinary number. This is the only way to lose the mean. From
the second sample on, at most half of the difference is added, and rounding
respects the order, so a mean lies between its predecessor and the sample.

A run is any list of calls. Its statistic is that of the finite samples since
the last reset. The mean is finite exactly when none of the differences
overflowed, and a mean that is not finite stays so until a reset. Samples from
an interval of finite length keep the mean in that interval.
-/
namespace Telemetry.Number

section Parts

variable {mean sample part : ℚ}

/-- At most half of a difference, rounded twice, does not exceed the difference.
Rounding may double a difference at worst, and a part of at most a half takes
that back. The difference is a whole number of the least places, so it is zero
or not below the lowest place. -/
theorem rounded_part_le {difference divisor : ℚ} (nonneg : 0 ≤ difference)
    (whole : ∃ places : ℤ, difference = places * 2 ^ (-1074 : ℤ)) (large : 2 ≤ divisor) :
    rounded (rounded difference / divisor) ≤ difference := by
  rcases nonneg.eq_or_lt with rfl | positive
  · rw [rounded_zero, zero_div, rounded_zero]
  obtain ⟨places, counted⟩ := whole
  have least : (2 : ℚ) ^ (-1074 : ℤ) ≤ difference := by
    have one : (1 : ℚ) ≤ places := by
      rw [counted, mul_pos_iff_of_pos_right (two_zpow_pos _)] at positive
      exact_mod_cast Int.add_one_le_iff.mpr (Int.cast_pos.mp positive)
    rw [counted]
    exact le_mul_of_one_le_left (two_zpow_pos _).le one
  calc rounded (rounded difference / divisor) ≤ rounded (rounded difference / 2) :=
        rounded_mono (div_le_div_of_nonneg_left (rounded_nonneg nonneg) two_pos large)
    _ ≤ difference := rounded_half_le least

/-- Such a part leads from zero towards the difference, whichever way that is.
Below zero the case is mirrored, because rounding is symmetric. -/
theorem rounded_part_mem {difference divisor : ℚ}
    (whole : ∃ places : ℤ, difference = places * 2 ^ (-1074 : ℤ)) (large : 2 ≤ divisor) :
    rounded (rounded difference / divisor) ∈ Set.uIcc 0 difference := by
  have positive : 0 < divisor := two_pos.trans_le large
  rw [Set.mem_uIcc]
  rcases le_total 0 difference with up | down
  · exact .inl ⟨rounded_nonneg (div_nonneg (rounded_nonneg up) positive.le),
      rounded_part_le up whole large⟩
  · have opposite : ∃ places : ℤ, -difference = places * 2 ^ (-1074 : ℤ) := by
      obtain ⟨places, counted⟩ := whole
      exact ⟨-places, by rw [counted, Int.cast_neg, neg_mul]⟩
    have bound := rounded_part_le (neg_nonneg.mpr down) opposite large
    have sign := rounded_nonneg (div_nonneg (rounded_nonneg (neg_nonneg.mpr down)) positive.le)
    rw [rounded_neg, neg_div, rounded_neg] at bound sign
    exact .inr ⟨neg_le_neg_iff.mp bound, neg_nonneg.mp sign⟩

/-- A part of the way from a mean to a sample leads between them, also when it
is rounded: both ends are readings and are kept by rounding, and rounding
respects the order. -/
theorem rounded_add_mem (own : rounded mean = mean) (alsoOwn : rounded sample = sample)
    (within : part ∈ Set.uIcc 0 (sample - mean)) :
    rounded (mean + part) ∈ Set.uIcc mean sample := by
  rw [Set.mem_uIcc] at within ⊢
  rw [← own, ← alsoOwn]
  rcases within with ⟨low, high⟩ | ⟨low, high⟩
  · refine .inl ⟨rounded_mono ?_, rounded_mono ?_⟩ <;> linarith
  · refine .inr ⟨rounded_mono ?_, rounded_mono ?_⟩ <;> linarith

end Parts

section Divisors

/-- A count is not rounded below a smaller count that fits a mantissa, because
that one is kept. -/
theorem le_rounded_natCast {least count : ℕ} (small : least < 2 ^ 53) (enough : least ≤ count) :
    (least : ℚ) ≤ rounded count :=
  (rounded_natCast small).symm.trans_le (rounded_mono (Nat.cast_le.mpr enough))

/-- A count from one on is a reading from one on, even where it is rounded. -/
theorem one_le_ofNat {count : ℕ} (positive : 1 ≤ count) : 1 ≤ Float.ofNat count := by
  have bound : ((1 : ℕ) : ℚ) ≤ rounded count := le_rounded_natCast (by norm_num) positive
  rw [← rounded_natCast (by norm_num : 1 < 2 ^ 53), ← value_ofNat, ← value_ofNat] at bound
  exact (le_iff_value (isNaN_ofNat 1) (isNaN_ofNat count)).mpr bound

variable {difference : Float} {count : ℕ}

/-- A finite difference divided by a count is finite. The count may be too large
for a finite number; then the quotient vanishes. -/
theorem isFinite_div_ofNat (finite : difference.isFinite = true) (positive : 1 ≤ count) :
    (difference / Float.ofNat count).isFinite = true := by
  cases bounded : (Float.ofNat count).isFinite with
  | true => exact isFinite_div finite bounded (one_le_ofNat positive)
  | false =>
    obtain ⟨sign, zero⟩ := unpack_div_infinite finite bounded (isNaN_ofNat count)
    change (difference / Float.ofNat count).toModel.unpack.isFinite = true
    rw [zero]
    rfl

end Divisors

end Telemetry.Number

namespace Telemetry.Statistic

open Number

section Steps

variable {mean sample : Float} {count : ℕ}

/-- From the first sample on, the mean is moved by a part of the difference.
There is no count of zero to divide by. -/
theorem next_of_pos (positive : 1 ≤ count) :
    next mean count sample = mean + (sample - mean) / Float.ofNat count :=
  if_neg (Nat.one_le_iff_ne_zero.mp positive)

/-- What has overflowed is in the mean: a difference that is not finite leaves a
quotient and a sum that are not. -/
theorem isFinite_of_next (positive : 1 ≤ count)
    (finite : (next mean count sample).isFinite = true) : (sample - mean).isFinite = true := by
  rw [next_of_pos positive] at finite
  exact isFinite_of_div (isFinite_of_add finite).2

/-- The part of the difference that is added leads towards the sample and not
past it. If the count is past the range, nothing is added at all. -/
theorem value_part_mem (several : 2 ≤ count) (difference : (sample - mean).isFinite = true) :
    value ((sample - mean) / Float.ofNat count) ∈ Set.uIcc 0 (value sample - value mean) := by
  obtain ⟨finite, alsoFinite⟩ := isFinite_of_sub difference
  cases bounded : (Float.ofNat count).isFinite with
  | true =>
    have large : ((2 : ℕ) : ℚ) ≤ value (Float.ofNat count) := by
      rw [value_ofNat]
      exact le_rounded_natCast (by norm_num) several
    have positive : 0 < value (Float.ofNat count) := two_pos.trans_le large
    have whole : ∃ places : ℤ, value sample - value mean = places * 2 ^ (-1074 : ℤ) := by
      obtain ⟨first, same⟩ := value_eq_whole finite
      obtain ⟨second, alsoSame⟩ := value_eq_whole alsoFinite
      exact ⟨first - second, by rw [same, alsoSame, Int.cast_sub, sub_mul]⟩
    rw [value_div difference bounded positive.ne', value_sub finite alsoFinite]
    exact rounded_part_mem whole large
  | false =>
    obtain ⟨sign, zero⟩ := unpack_div_infinite difference bounded (isNaN_ofNat count)
    have nothing : value ((sample - mean) / Float.ofNat count) = 0 := by
      rw [value, zero, decodedValue_zero]
    rw [nothing]
    exact Set.left_mem_uIcc

/-- From the second sample on, a mean lies between its predecessor and the
sample. So it is finite with them, although their difference had to be computed
on the way. -/
theorem value_next_mem (several : 2 ≤ count) (difference : (sample - mean).isFinite = true) :
    (next mean count sample).isFinite = true ∧
      value (next mean count sample) ∈ Set.uIcc (value mean) (value sample) := by
  obtain ⟨finite, alsoFinite⟩ := isFinite_of_sub difference
  have positive : 1 ≤ count := by omega
  have quotient := isFinite_div_ofNat difference positive
  have moved : value (next mean count sample) ∈ Set.uIcc (value mean) (value sample) := by
    rw [next_of_pos positive, value_add alsoFinite quotient]
    exact rounded_add_mem (rounded_value alsoFinite) (rounded_value finite)
      (value_part_mem several difference)
  have comparable : (next mean count sample).isNaN = false := by
    rw [next_of_pos positive]
    exact isNaN_add alsoFinite (isNaN_of_isFinite quotient)
  refine ⟨(isFinite_iff_value comparable).mpr ?_, moved⟩
  have first := abs_lt.mp (abs_value_lt finite)
  have second := abs_lt.mp (abs_value_lt alsoFinite)
  rw [abs_lt]
  rcases Set.mem_uIcc.mp moved with ⟨low, high⟩ | ⟨low, high⟩
  · exact ⟨second.1.trans_le low, high.trans_lt first.2⟩
  · exact ⟨first.1.trans_le low, high.trans_lt second.2⟩

/-- The first sample is the first mean: nothing of it is lost by taking zero
away, dividing by one and adding zero. -/
theorem value_next_first (finite : sample.isFinite = true) :
    (next 0 1 sample).isFinite = true ∧ value (next 0 1 sample) = value sample := by
  have zeroFinite : (0 : Float).isFinite = true := by decide
  have oneFinite : (Float.ofNat 1).isFinite = true := by decide
  have one : value (Float.ofNat 1) = 1 := value_one
  have difference : value (sample - 0) = value sample := by
    rw [value_sub finite zeroFinite, value_zero, sub_zero, rounded_value finite]
  have differenceFinite : (sample - 0).isFinite = true :=
    isFinite_of_value_eq (isNaN_sub finite zeroFinite) finite difference
  have quotient : value ((sample - 0) / Float.ofNat 1) = value sample := by
    rw [value_div differenceFinite oneFinite (one ▸ one_ne_zero), one, div_one, difference,
      rounded_value finite]
  have quotientFinite := isFinite_div_ofNat differenceFinite le_rfl
  have sum : value (next 0 1 sample) = value sample := by
    rw [next_of_pos le_rfl, value_add zeroFinite quotientFinite, value_zero, zero_add,
      quotient, rounded_value finite]
  have comparable : (next 0 1 sample).isNaN = false := by
    rw [next_of_pos le_rfl]
    exact isNaN_add zeroFinite (isNaN_of_isFinite quotientFinite)
  exact ⟨isFinite_of_value_eq comparable finite sum, sum⟩

end Steps

section Samples

variable {state : Statistic} {sample : Float} {samples past : List Float}

/-- A finite sample is counted and moves the mean. -/
theorem push_of_finite (finite : sample.isFinite = true) :
    state.push sample = ⟨state.count + 1, next state.mean (state.count + 1) sample⟩ :=
  if_pos finite

/-- A sample that is not finite is passed over: neither the count nor the mean
changes. -/
theorem push_of_not_finite (unbounded : sample.isFinite = false) : state.push sample = state :=
  if_neg (Bool.not_eq_true _ ▸ unbounded)

/-- Samples are taken in one after another, the last one last. The inductions on
samples go from this end, because a mean depends on those before it. -/
theorem extend_concat (state : Statistic) (past : List Float) (sample : Float) :
    state.extend (past ++ [sample]) = (state.extend past).push sample := by
  simp only [extend, List.foldl_append, List.foldl_cons, List.foldl_nil]

/-- Only finite samples count. Those that are passed over may as well not have
been there. -/
theorem extend_filter (state : Statistic) (samples : List Float) :
    state.extend (samples.filter Float.isFinite) = state.extend samples := by
  rw [extend, List.foldl_filter, extend]
  apply List.foldl_ext
  intro before sample _
  by_cases finite : sample.isFinite = true
  · rw [if_pos finite]
  · rw [if_neg finite, push_of_not_finite (Bool.eq_false_of_not_eq_true finite)]

/-- Every finite sample is counted once. -/
theorem count_extend (finite : ∀ sample ∈ samples, sample.isFinite = true) :
    (extend empty samples).count = samples.length := by
  induction samples using List.reverseRecOn with
  | nil => rfl
  | append_singleton past sample inductionHypothesis =>
    have last : sample.isFinite = true := finite sample (by simp)
    have before := inductionHypothesis fun earlier member => finite earlier (by simp [member])
    rw [extend_concat, push_of_finite last, before, List.length_append, List.length_singleton]

/-- A mean that is not finite stays so: what the next step adds to it cannot
bring it back. -/
theorem isFinite_of_extend (finite : (state.extend samples).mean.isFinite = true) :
    state.mean.isFinite = true := by
  induction samples using List.reverseRecOn with
  | nil => exact finite
  | append_singleton past sample inductionHypothesis =>
    apply inductionHypothesis
    rw [extend_concat] at finite
    by_cases sound : sample.isFinite = true
    · rw [push_of_finite sound] at finite
      exact (isFinite_of_sub (isFinite_of_next (Nat.le_add_left 1 _) finite)).2
    · rwa [push_of_not_finite (Bool.eq_false_of_not_eq_true sound)] at finite

/-- A sample is taken in without overflow exactly when its difference to the
mean is finite. For the first sample this is no condition, since the mean before
it is zero. -/
theorem isFinite_concat_iff (finite : ∀ earlier ∈ past, earlier.isFinite = true)
    (sound : sample.isFinite = true) :
    (extend empty (past ++ [sample])).mean.isFinite = true ↔
      (sample - (extend empty past).mean).isFinite = true := by
  rw [extend_concat, push_of_finite sound]
  refine ⟨isFinite_of_next (Nat.le_add_left 1 _), ?_⟩
  intro difference
  rcases eq_or_ne past [] with rfl | filled
  · exact (value_next_first sound).1
  · refine (value_next_mem ?_ difference).1
    have earlier := List.length_pos_iff.mpr filled
    rw [count_extend finite]
    omega

/-- The mean is finite exactly when no difference has overflowed, for no sample
against the mean of those before it. The induction adds one sample, whose
difference is the only new condition. -/
theorem isFinite_mean_iff (finite : ∀ sample ∈ samples, sample.isFinite = true) :
    (extend empty samples).mean.isFinite = true ↔
      ∀ past sample, past ++ [sample] <+: samples →
        (sample - (extend empty past).mean).isFinite = true := by
  induction samples using List.reverseRecOn with
  | nil =>
    refine ⟨?_, fun _ => by decide⟩
    intro _ past sample start
    exact absurd (List.prefix_nil.mp start) (by simp)
  | append_singleton earlier latest inductionHypothesis =>
    have earlierFinite : ∀ sample ∈ earlier, sample.isFinite = true :=
      fun sample member => finite sample (by simp [member])
    have latestFinite : latest.isFinite = true := finite latest (by simp)
    rw [isFinite_concat_iff earlierFinite latestFinite]
    constructor
    · intro difference past sample start
      rcases List.prefix_concat_iff.mp start with whole | within
      · obtain ⟨rfl, last⟩ := List.append_inj' whole rfl
        obtain rfl : sample = latest := by simpa using last
        exact difference
      · have sound := (isFinite_of_sub difference).2
        exact (inductionHypothesis earlierFinite).mp sound past sample within
    · intro differences
      exact differences earlier latest List.prefix_rfl

/-- Samples from an interval that is not too long keep the mean in it. The
difference between a sample and a mean is then no longer than the interval, so
it does not overflow, and the next mean lies between the two. -/
theorem mean_between {low high : ℚ} (short : rounded (high - low) < limit)
    (finite : ∀ sample ∈ samples, sample.isFinite = true)
    (within : ∀ sample ∈ samples, low ≤ value sample ∧ value sample ≤ high) :
    (extend empty samples).mean.isFinite = true ∧ (samples ≠ [] →
      low ≤ value (extend empty samples).mean ∧ value (extend empty samples).mean ≤ high) := by
  induction samples using List.reverseRecOn with
  | nil => exact ⟨by decide, fun filled => absurd rfl filled⟩
  | append_singleton past sample inductionHypothesis =>
    have pastFinite : ∀ earlier ∈ past, earlier.isFinite = true :=
      fun earlier member => finite earlier (by simp [member])
    have sound : sample.isFinite = true := finite sample (by simp)
    obtain ⟨above, below⟩ := within sample (by simp)
    obtain ⟨meanFinite, between⟩ := inductionHypothesis pastFinite
      fun earlier member => within earlier (by simp [member])
    rw [extend_concat, push_of_finite sound]
    rcases eq_or_ne past [] with rfl | filled
    · obtain ⟨nextFinite, same⟩ := value_next_first sound
      refine ⟨nextFinite, fun _ => ?_⟩
      have first : value (next 0 1 sample) = value sample := same
      exact ⟨above.trans_eq first.symm, first.trans_le below⟩
    · obtain ⟨meanAbove, meanBelow⟩ := between filled
      have difference : (sample - (extend empty past).mean).isFinite = true := by
        rw [isFinite_iff_value (isNaN_sub sound meanFinite), value_sub sound meanFinite,
          abs_rounded]
        refine (rounded_mono ?_).trans_lt short
        rw [abs_le]
        constructor <;> linarith
      have several : 2 ≤ (extend empty past).count + 1 := by
        have earlier := List.length_pos_iff.mpr filled
        rw [count_extend pastFinite]
        omega
      obtain ⟨nextFinite, moved⟩ := value_next_mem several difference
      refine ⟨nextFinite, fun _ => ?_⟩
      rcases Set.mem_uIcc.mp moved with ⟨least, most⟩ | ⟨least, most⟩
      · exact ⟨meanAbove.trans least, most.trans below⟩
      · exact ⟨above.trans least, most.trans meanBelow⟩

end Samples

section Runs

/-- A call on a statistic. -/
inductive Call where
  | push (sample : Float)
  | extend (samples : List Float)
  | reset

/-- The statistic after a call. -/
def perform (state : Statistic) : Call → Statistic
  | .push sample => state.push sample
  | .extend samples => state.extend samples
  | .reset => empty

/-- Calls made one after another. -/
def run (calls : List Call) (state : Statistic) : Statistic := calls.foldl perform state

/-- What a call makes of the samples since the last reset. -/
def collect (taken : List Float) : Call → List Float
  | .push sample => taken ++ [sample].filter Float.isFinite
  | .extend samples => taken ++ samples.filter Float.isFinite
  | .reset => []

/-- The finite samples since the last reset. -/
def taken (calls : List Call) : List Float := calls.foldl collect []

/-- Only finite samples are collected, whatever was pushed. -/
theorem finite_taken (calls : List Call) : ∀ sample ∈ taken calls, sample.isFinite = true := by
  refine List.foldlRecOn calls collect
    (motive := fun taken => ∀ sample ∈ taken, sample.isFinite = true) (List.forall_mem_nil _) ?_
  intro taken finite call _ sample member
  cases call with
  | push latest =>
    rcases List.mem_append.mp member with earlier | added
    · exact finite sample earlier
    · exact (List.mem_filter.mp added).2
  | extend samples =>
    rcases List.mem_append.mp member with earlier | added
    · exact finite sample earlier
    · exact (List.mem_filter.mp added).2
  | reset => cases member

/-- A call does to the statistic of some samples what it does to the samples. So
a statistic is known by its samples since the last reset. -/
theorem perform_extend (samples : List Float) (call : Call) :
    perform (extend empty samples) call = extend empty (collect samples call) := by
  have added (more : List Float) : extend empty (samples ++ more.filter Float.isFinite) =
      (extend empty samples).extend more := by
    rw [← extend_filter (extend empty samples) more]
    exact List.foldl_append ..
  cases call with
  | push sample => exact (added [sample]).symm
  | extend more => exact (added more).symm
  | reset => rfl

/-- After any calls a statistic is that of the samples collected since the last
reset. Nothing else of the calls is left in it. -/
theorem run_eq_extend (calls : List Call) : run calls empty = extend empty (taken calls) := by
  induction calls using List.reverseRecOn with
  | nil => rfl
  | append_singleton earlier call inductionHypothesis =>
    simp only [run, taken, List.foldl_append, List.foldl_cons, List.foldl_nil]
    rw [← run, inductionHypothesis, perform_extend, taken]

/-- The mean of a run is finite unless the difference between some sample and
the mean before it has overflowed, and then it stays lost until a reset. Samples
whose spread is finite never overflow a difference, and their mean lies among
them.

Once a difference has not overflowed, dividing it and adding it to the mean
cannot leave the range between the mean and the sample. So a mean is lost at a
difference or not at all. -/
theorem mean_finite_unless_difference_overflows (calls : List Call) :
    let statistic := run calls empty
    let samples := taken calls
    statistic = extend empty samples ∧
    statistic.count = samples.length ∧
    (statistic.mean.isFinite = true ↔
      ∀ past sample, past ++ [sample] <+: samples →
        (sample - (extend empty past).mean).isFinite = true) ∧
    (∀ low high : Float, (high - low).isFinite = true →
      (∀ sample ∈ samples, low ≤ sample ∧ sample ≤ high) →
        statistic.mean.isFinite = true ∧
          (samples ≠ [] → low ≤ statistic.mean ∧ statistic.mean ≤ high)) ∧
    (∀ more, statistic.mean.isFinite = false →
      (statistic.extend more).mean.isFinite = false) ∧
    (∀ sample : Float, sample.isFinite = false → statistic.push sample = statistic) := by
  intro statistic samples
  have finite : ∀ sample ∈ samples, sample.isFinite = true := finite_taken calls
  have same : statistic = extend empty samples := run_eq_extend calls
  refine ⟨same, ?_, ?_, ?_, ?_, fun _ => push_of_not_finite⟩
  · rw [same, count_extend finite]
  · rw [same, isFinite_mean_iff finite]
  · intro low high spread within
    obtain ⟨highFinite, lowFinite⟩ := isFinite_of_sub spread
    have lowComparable := isNaN_of_isFinite lowFinite
    have highComparable := isNaN_of_isFinite highFinite
    have short : rounded (value high - value low) < limit := by
      rw [← value_sub highFinite lowFinite]
      exact (abs_lt.mp (abs_value_lt spread)).2
    obtain ⟨meanFinite, between⟩ := mean_between short finite fun sample member => by
      have comparable := isNaN_of_isFinite (finite sample member)
      obtain ⟨above, below⟩ := within sample member
      exact ⟨(le_iff_value lowComparable comparable).mp above,
        (le_iff_value comparable highComparable).mp below⟩
    have comparable := isNaN_of_isFinite meanFinite
    rw [same]
    refine ⟨meanFinite, fun filled => ?_⟩
    obtain ⟨above, below⟩ := between filled
    exact ⟨(le_iff_value lowComparable comparable).mpr above,
      (le_iff_value comparable highComparable).mpr below⟩
  · intro more lost
    by_contra regained
    have finite := isFinite_of_extend (Bool.eq_true_of_not_eq_false regained)
    rw [lost] at finite
    cases finite

/-- Two finite samples, of which the mean would be zero, can overflow the
difference. They lie at both ends of the range, so that their distance is about
twice its half. -/
theorem mean_overflows_between_extremes :
    (1.7e308 : Float).isFinite = true ∧ (-1.7e308 : Float).isFinite = true ∧
      (run [.push 1.7e308, .push (-1.7e308)] empty).mean.isFinite = false := by
  decide +kernel

end Runs

end Telemetry.Statistic
