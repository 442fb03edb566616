import Telemetry.Proofs.CalculatorRuns
import Telemetry.Proofs.MeanBounds

/-!
# When an average execution time is a span

A calculator keeps the mean of its execution times in seconds. Read back as a
span, that mean must lie below `2 ^ 64`, the first number of seconds past the
longest span. Execution times are spans, but as seconds they are rounded: from
`2 ^ 64 - 1024` on, whole seconds are rounded up to `2 ^ 64` itself. A mean
stays between its samples, so it never exceeds `2 ^ 64`, and it has no span
exactly when it reaches that number. With shorter execution times only it
cannot; a single one that long is enough.
-/
namespace Telemetry.Number

open Float.Model (UnpackedFloat Format)
open Float.Model.UnpackedFloat

section Fields

/-- The exponent field as a number: eleven bits above the mantissa. -/
theorem toNat_unpackExponent (bits : BitVec Format.binary64.numBits) :
    (unpackExponent bits).toNat = bits.toNat / 2 ^ 52 % 2 ^ 11 := by
  unfold unpackExponent
  rw [BitVec.toNat_cast, BitVec.extractLsb_toNat, Nat.shiftRight_eq_div_pow]
  rfl

/-- The mantissa field as a number: the lowest 52 bits. -/
theorem toNat_unpackMantissa (bits : BitVec Format.binary64.numBits) :
    (unpackMantissa bits).toNat = bits.toNat % 2 ^ 52 := by
  unfold unpackMantissa
  rw [BitVec.toNat_cast, BitVec.extractLsb_toNat, Nat.shiftRight_zero]
  rfl

/-- The sign field as a number: the bit above the other two. -/
theorem toNat_unpackSign (bits : BitVec Format.binary64.numBits) :
    (unpackSign bits).toNat = bits.toNat / 2 ^ 63 % 2 := by
  unfold unpackSign
  rw [BitVec.toNat_cast, BitVec.extractLsb_toNat, Nat.shiftRight_eq_div_pow]
  rfl

/-- The sign bit is the highest one. So a word from `2 ^ 63` on is a negative
number, which is how the sign of a reading is tested elsewhere. -/
theorem ofBitVec_unpackSign (x : Float) :
    Sign.ofBitVec (@unpackSign Format.binary64 x.toModel.toBits.toBitVec) =
      if isNegative x then .negative else .positive := by
  have bit := toNat_unpackSign x.toModel.toBits.toBitVec
  have word : x.toModel.toBits.toBitVec.toNat < 2 ^ 64 := x.toModel.toBits.toBitVec.isLt
  by_cases high : 2 ^ 63 ≤ x.toModel.toBits.toBitVec.toNat
  · have negative : isNegative x = true := decide_eq_true high
    rw [negative, Sign.ofBitVec, if_neg]
    · rfl
    · intro zero
      rw [zero] at bit
      change 0 = _ at bit
      omega
  · have positive : isNegative x = false := decide_eq_false high
    rw [positive, Sign.ofBitVec, if_pos]
    · rfl
    · apply BitVec.eq_of_toNat_eq
      rw [bit]
      change _ = 0
      omega

/-- What the fields of a finite number are worth. The leading one is left out
where the exponent field is empty. A zero is covered by that, as the mantissa
zero. -/
theorem decodedValue_unpack {bits : BitVec Format.binary64.numBits}
    (notFull : (unpackExponent bits).toNat ≠ 2047) :
    decodedValue (unpack Format.binary64 bits) =
      if (unpackExponent bits).toNat = 0 then
        signed (Sign.ofBitVec (unpackSign bits)) ((unpackMantissa bits).toNat * 2 ^ (-1074 : ℤ))
      else
        signed (Sign.ofBitVec (unpackSign bits))
          ((2 ^ 52 + (unpackMantissa bits).toNat : ℕ) *
            2 ^ ((unpackExponent bits).toNat - 1075 : ℤ)) := by
  have decoded := decoding_unpack Format.binary64 bits
  generalize unpack Format.binary64 bits = number at decoded ⊢
  cases decoded with
  | infinity full | notANumber full => exact absurd (congrArg BitVec.toNat full) notFull
  | zero _ least empty =>
    have none : (unpackExponent bits).toNat = 0 := congrArg BitVec.toNat least
    have nothing : (unpackMantissa bits).toNat = 0 := congrArg BitVec.toNat empty
    rw [if_pos none, nothing, Nat.cast_zero, zero_mul, signed_zero]
    rfl
  | subnormal _ least =>
    have none : (unpackExponent bits).toNat = 0 := congrArg BitVec.toNat least
    rw [if_pos none, decodedValue_finite, none]
    rfl
  | normal _ raised =>
    have some : (unpackExponent bits).toNat ≠ 0 := fun none => raised (BitVec.eq_of_toNat_eq none)
    rw [if_neg some, decodedValue_finite, toNat_leading_one]
    rfl

/-- The parts of a finite reading are what it is worth. They are cut out of the
same bits by division, without decoding. -/
theorem value_eq_parts {x : Float} (finite : x.isFinite = true) :
    ∃ parts, Parts.ofFloat? x = some parts ∧ parts.mantissa < 2 ^ 53 ∧
      value x = signed (if parts.negative then .negative else .positive)
        (parts.mantissa * 2 ^ parts.exponent) := by
  have notFull := isFinite_unpack_iff.mp finite
  have worth : value x = _ := decodedValue_unpack notFull
  rw [ofBitVec_unpackSign, toNat_unpackMantissa, toNat_unpackExponent] at worth
  rw [toNat_unpackExponent] at notFull
  have digits : x.toModel.toBits.toBitVec.toNat % 2 ^ 52 < 2 ^ 52 := Nat.mod_lt _ (by norm_num)
  have parts : Parts.ofFloat? x = _ := if_neg notFull
  by_cases empty : x.toModel.toBits.toBitVec.toNat / 2 ^ 52 % 2 ^ 11 = 0
  · rw [if_pos empty] at worth
    exact ⟨_, parts.trans (if_pos empty), digits.trans (by norm_num), worth⟩
  · rw [if_neg empty] at worth
    exact ⟨_, parts.trans (if_neg empty),
      (Nat.add_lt_add_left digits (2 ^ 52)).trans_eq (by norm_num), worth⟩

end Fields

end Telemetry.Number

namespace Telemetry.Span

open Number

section Reading

/-- A whole number is not rounded. -/
theorem roundHalfEven_one (dividend : ℕ) : roundHalfEven dividend 1 = dividend := by
  unfold roundHalfEven
  rw [Nat.mod_one, Nat.div_one]
  rfl

/-- Rounding a quotient leads at most to the next whole number. -/
theorem roundHalfEven_le (dividend divisor : ℕ) :
    roundHalfEven dividend divisor ≤ dividend / divisor + 1 := by
  unfold roundHalfEven
  dsimp only
  split
  · omega
  · omega
  · split <;> omega

/-- A number of nanoseconds has a span exactly when its whole seconds fit a
word. -/
theorem isSome_ofNanos?_iff (total : ℕ) :
    (ofNanos? total).isSome = true ↔ total / 1000000000 < 2 ^ 64 := by
  unfold ofNanos?
  by_cases fits : total / 1000000000 < UInt64.size
  · rw [if_pos fits]
    exact iff_of_true rfl fits
  · rw [if_neg fits]
    exact iff_of_false Bool.false_ne_true fits

/-- A number of seconds that is not negative has a span exactly when it lies
below `2 ^ 64`. Up to `2 ^ 53` it has one in any case; above, it is a whole
number. -/
theorem isSome_ofSeconds?_iff {seconds : Float} (finite : seconds.isFinite = true)
    (nonneg : 0 ≤ value seconds) :
    (ofSeconds? seconds).isSome = true ↔ value seconds < 2 ^ (64 : ℤ) := by
  obtain ⟨⟨negative, mantissa, exponent⟩, parts, short, worth⟩ := value_eq_parts finite
  dsimp only at short worth
  have proper : ¬(negative = true ∧ mantissa ≠ 0) := by
    rintro ⟨below, nonzero⟩
    have size := magnitude_pos (Nat.pos_of_ne_zero nonzero) exponent
    rw [worth, if_pos below, signed] at nonneg
    linarith
  have magnitude : value seconds = mantissa * 2 ^ exponent := by
    rw [worth]
    by_cases below : negative = true
    · have zero : mantissa = 0 := by_contra fun nonzero => proper ⟨below, nonzero⟩
      rw [zero, Nat.cast_zero, zero_mul, signed_zero]
    · rw [if_neg below, signed]
  have read : ofSeconds? seconds = ofNanos? (roundHalfEven
      (mantissa * 1000000000 * 2 ^ exponent.toNat) (2 ^ (-exponent).toNat)) := by
    unfold ofSeconds?
    rw [parts]
    exact if_neg proper
  rw [read, isSome_ofNanos?_iff, magnitude]
  rcases le_or_gt 0 exponent with whole | fractional
  · obtain ⟨places, rfl⟩ := Int.eq_ofNat_of_zero_le whole
    rw [Int.toNat_natCast, Int.toNat_neg_natCast, Nat.pow_zero, roundHalfEven_one,
      Nat.mul_right_comm, Nat.mul_div_cancel _ (by norm_num)]
    exact_mod_cast Iff.rfl
  · have scaled : exponent.toNat = 0 := by omega
    rw [scaled, Nat.pow_zero, Nat.mul_one]
    constructor
    · intro _
      exact (magnitude_lt_two_zpow short exponent).trans_le (two_zpow_mono (by omega))
    · intro _
      have near := roundHalfEven_le (mantissa * 1000000000) (2 ^ (-exponent).toNat)
      have less := Nat.div_le_self (mantissa * 1000000000) (2 ^ (-exponent).toNat)
      omega

end Reading

section Seconds

/-- Half of the step below `2 ^ 64` is rounded up to it, and a step of one above
is lost. The first is a half and goes to the even mantissa, the second is less
than a half. -/
theorem rounded_near_longest :
    rounded ((2 ^ 64 - 1024 : ℕ) : ℚ) = 2 ^ 64 ∧ rounded ((2 ^ 64 + 1 : ℕ) : ℚ) = 2 ^ 64 := by
  have up : rank (Float.ofNat (2 ^ 64 - 1024)).toModel.unpack =
      toLex (1, toLex (12, ((2 ^ 52 : ℕ) : ℤ))) := by decide +kernel
  have down : rank (Float.ofNat (2 ^ 64 + 1)).toModel.unpack =
      toLex (1, toLex (12, ((2 ^ 52 : ℕ) : ℤ))) := by decide +kernel
  rw [rounded_of_rank (by norm_num) up, rounded_of_rank (by norm_num) down]
  norm_num

/-- Below that half, numbers are rounded down to the next number before `2 ^
64`, also with a second more. So nanoseconds cannot make up for it. -/
theorem rounded_before_longest :
    rounded ((2 ^ 64 - 1025 : ℕ) : ℚ) = (2 ^ 64 - 2048 : ℕ) ∧
      rounded ((2 ^ 64 - 2048 + 1 : ℕ) : ℚ) = (2 ^ 64 - 2048 : ℕ) := by
  have first : rank (Float.ofNat (2 ^ 64 - 1025)).toModel.unpack =
      toLex (1, toLex (11, ((2 ^ 53 - 1 : ℕ) : ℤ))) := by decide +kernel
  have second : rank (Float.ofNat (2 ^ 64 - 2048 + 1)).toModel.unpack =
      toLex (1, toLex (11, ((2 ^ 53 - 1 : ℕ) : ℤ))) := by decide +kernel
  rw [rounded_of_rank (by norm_num) first, rounded_of_rank (by norm_num) second]
  norm_num

/-- The nanoseconds make at most a second. They are below a billion, and the
quotient is rounded to a number that does not pass one, because one is a
reading. -/
theorem value_fraction (span : Span) :
    (Float.ofNat span.nanos / 1000000000.0).isFinite = true ∧
      0 ≤ value (Float.ofNat span.nanos / 1000000000.0) ∧
        value (Float.ofNat span.nanos / 1000000000.0) ≤ 1 := by
  have placed : rank (1000000000.0 : Float).toModel.unpack =
      toLex (1, toLex (-23, ((1000000000 * 2 ^ 23 : ℕ) : ℤ))) := by decide +kernel
  have billion : value 1000000000.0 = 1000000000 := by
    rw [value_eq_of_rank (by norm_num) placed]
    norm_num
  have small : span.nanos < 2 ^ 53 := span.nanos_lt.trans (by norm_num)
  have nanosFinite := isFinite_of_inRange (inRange_ofNat small)
  have billionFinite : (1000000000.0 : Float).isFinite = true := by decide
  refine ⟨isFinite_div nanosFinite billionFinite (by decide), ?_⟩
  rw [value_div nanosFinite billionFinite (by rw [billion]; norm_num), billion, value_ofNat,
    rounded_natCast small]
  constructor
  · exact rounded_nonneg (by positivity)
  · have one := rounded_natCast (by norm_num : 1 < 2 ^ 53)
    rw [Nat.cast_one] at one
    rw [← one]
    apply rounded_mono
    rw [div_le_one (by norm_num)]
    exact_mod_cast span.nanos_lt.le

/-- A span in seconds is rounded twice: once for its whole seconds and once for
the sum with the nanoseconds. -/
theorem value_toSeconds (span : Span) : value span.toSeconds =
    rounded (rounded span.seconds.toNat + value (Float.ofNat span.nanos / 1000000000.0)) := by
  rw [toSeconds, value_add (isFinite_of_inRange (inRange_toFloat _)) (value_fraction span).1,
    value_toFloat]

/-- A span is never negative in seconds, since neither of its parts is. -/
theorem value_toSeconds_nonneg (span : Span) : 0 ≤ value span.toSeconds := by
  rw [value_toSeconds]
  exact rounded_nonneg (add_nonneg (rounded_nonneg (Nat.cast_nonneg _)) (value_fraction span).2.1)

/-- No span exceeds `2 ^ 64` seconds, though it may be rounded up to that. Its
whole seconds are below, and one second more is lost in rounding. -/
theorem value_toSeconds_le (span : Span) : value span.toSeconds ≤ 2 ^ 64 := by
  have whole : rounded span.seconds.toNat ≤ 2 ^ 64 := by
    rw [← rounded_near_longest.2]
    apply rounded_mono
    exact_mod_cast span.seconds.toNat_lt.le.trans (Nat.le_succ _)
  rw [value_toSeconds, ← rounded_near_longest.2]
  apply rounded_mono
  rw [Nat.cast_add, Nat.cast_pow, Nat.cast_ofNat, Nat.cast_one]
  exact add_le_add whole (value_fraction span).2.2

/-- Seconds that are not too many stay short of `2 ^ 64`: they are rounded down
to the number before it, and the nanoseconds do not change this. -/
theorem value_toSeconds_le_of_lt {span : Span} (short : span.seconds.toNat < 2 ^ 64 - 1024) :
    value span.toSeconds ≤ (2 ^ 64 - 2048 : ℕ) := by
  have whole : rounded span.seconds.toNat ≤ (2 ^ 64 - 2048 : ℕ) := by
    rw [← rounded_before_longest.1]
    apply rounded_mono
    exact_mod_cast Nat.le_pred_of_lt short
  rw [value_toSeconds, ← rounded_before_longest.2]
  apply rounded_mono
  rw [Nat.cast_add, Nat.cast_one]
  exact add_le_add whole (value_fraction span).2.2

/-- All others reach it. Their whole seconds are rounded up to `2 ^ 64`, and
nothing is taken off by the nanoseconds. -/
theorem value_toSeconds_of_le {span : Span} (long : 2 ^ 64 - 1024 ≤ span.seconds.toNat) :
    value span.toSeconds = 2 ^ 64 := by
  apply le_antisymm (value_toSeconds_le span)
  have whole : (2 ^ 64 : ℚ) ≤ rounded span.seconds.toNat := by
    rw [← rounded_near_longest.1]
    exact rounded_mono (Nat.cast_le.mpr long)
  have half : ((2 ^ 64 - 1024 : ℕ) : ℚ) ≤ 2 ^ 64 := by norm_num
  calc (2 ^ 64 : ℚ) = rounded ((2 ^ 64 - 1024 : ℕ) : ℚ) := rounded_near_longest.1.symm
    _ ≤ rounded (rounded span.seconds.toNat + value (Float.ofNat span.nanos / 1000000000.0)) :=
        rounded_mono (by linarith only [half, whole, (value_fraction span).2.1])
    _ = value span.toSeconds := (value_toSeconds span).symm

/-- A span stays below `2 ^ 64` seconds exactly when its whole seconds are at
least 1025 short of it. -/
theorem value_toSeconds_lt_iff (span : Span) :
    value span.toSeconds < 2 ^ 64 ↔ span.seconds.toNat < 2 ^ 64 - 1024 := by
  constructor
  · intro below
    by_contra long
    rw [value_toSeconds_of_le (Nat.le_of_not_lt long)] at below
    exact lt_irrefl _ below
  · intro short
    exact (value_toSeconds_le_of_lt short).trans_lt (by norm_num)

end Seconds

end Telemetry.Span

namespace Telemetry

open Number

namespace CalculatorStatistics

variable {statistics : CalculatorStatistics}

/-- A mean that is not negative is read back as a span exactly when it lies
below `2 ^ 64`. A mean that is not above zero is read as zero, which is no
difference for one that is not negative. -/
theorem isSome_averageExecution?_iff (finite : statistics.executionSeconds.mean.isFinite = true)
    (nonneg : 0 ≤ value statistics.executionSeconds.mean) :
    statistics.averageExecution?.isSome = true ↔
      value statistics.executionSeconds.mean < 2 ^ (64 : ℤ) := by
  have zeroFinite : (0 : Float).isFinite = true := by decide
  unfold averageExecution?
  dsimp only
  by_cases above : 0 < statistics.executionSeconds.mean
  · rw [if_pos above]
    exact Span.isSome_ofSeconds?_iff finite nonneg
  · rw [if_neg above]
    rw [lt_iff_value (isNaN_of_isFinite zeroFinite) (isNaN_of_isFinite finite), value_zero,
      not_lt] at above
    rw [Span.isSome_ofSeconds?_iff zeroFinite value_zero.ge, value_zero,
      le_antisymm above nonneg]

end CalculatorStatistics

namespace Calculator

variable {σ : Type}

/-- What a call makes of the execution times since the last reset. -/
def timed (spans : List Span) : Call σ → List Span
  | .calculate _ _ _ elapsed => spans ++ [elapsed]
  | .reset => []
  | _ => spans

/-- The execution times since the last reset. -/
def timesSinceReset (calls : List (Call σ)) : List Span := calls.foldl timed []

/-- Every calculation gives one sample, its execution time in seconds. A reset
forgets the samples, and no other call touches them. -/
theorem executionSeconds_perform {state : Calculator σ × σ} {spans : List Span}
    (sampled : state.1.statistics.executionSeconds =
      Statistic.extend .empty (spans.map Span.toSeconds)) (call : Call σ) :
    (perform state call).1.statistics.executionSeconds =
      Statistic.extend .empty ((timed spans call).map Span.toSeconds) := by
  cases call with
  | calculate left right operation elapsed =>
    rw [timed, List.map_append, List.map_singleton, Statistic.extend_concat, ← sampled]
    rfl
  | reset => rfl
  | setPrecision places =>
    rw [perform, setPrecision_standing]
    exact sampled
  | subscribe _ _ | unsubscribe _ | setHook _ => exact sampled

/-- After any calls the mean is that of the execution times since the last
reset. The induction adds one call at the end. -/
theorem executionSeconds_run (calls : List (Call σ)) (outside : σ) :
    (run calls ({}, outside)).1.statistics.executionSeconds =
      Statistic.extend .empty ((timesSinceReset calls).map Span.toSeconds) := by
  induction calls using List.reverseRecOn with
  | nil => rfl
  | append_singleton earlier call inductionHypothesis =>
    rw [run, timesSinceReset, List.foldl_append, List.foldl_append]
    exact executionSeconds_perform inductionHypothesis call

/-- The mean does not exceed a bound of the execution times and is not negative:
the times lie in an interval whose length is far from overflow. -/
theorem mean_executionSeconds {calls : List (Call σ)} {most : ℚ}
    (bound : ∀ span ∈ timesSinceReset calls, value span.toSeconds ≤ most) (nonneg : 0 ≤ most)
    (small : most ≤ 2 ^ 64) (outside : σ) :
    let mean := (run calls ({}, outside)).1.statistics.executionSeconds.mean
    mean.isFinite = true ∧ 0 ≤ value mean ∧ value mean ≤ most := by
  have short : rounded (most - 0) < limit :=
    calc rounded (most - 0) ≤ rounded ((2 ^ 64 + 1 : ℕ) : ℚ) := by
          apply rounded_mono
          push_cast
          linarith
      _ = 2 ^ (64 : ℤ) := Span.rounded_near_longest.2
      _ < limit := zpow_lt_zpow_right₀ one_lt_two (by norm_num)
  have finite : ∀ sample ∈ (timesSinceReset calls).map Span.toSeconds, sample.isFinite = true := by
    intro sample member
    obtain ⟨span, -, rfl⟩ := List.mem_map.mp member
    exact span.isFinite_toSeconds
  have within : ∀ sample ∈ (timesSinceReset calls).map Span.toSeconds,
      0 ≤ value sample ∧ value sample ≤ most := by
    intro sample member
    obtain ⟨span, listed, rfl⟩ := List.mem_map.mp member
    exact ⟨span.value_toSeconds_nonneg, bound span listed⟩
  obtain ⟨meanFinite, between⟩ := Statistic.mean_between short finite within
  intro mean
  have same : mean = (Statistic.extend .empty ((timesSinceReset calls).map Span.toSeconds)).mean :=
    congrArg RunningMean.mean (executionSeconds_run calls outside)
  rw [same]
  refine ⟨meanFinite, ?_⟩
  rcases eq_or_ne (timesSinceReset calls) [] with none | some
  · rw [none]
    exact ⟨value_zero.ge, value_zero.trans_le nonneg⟩
  · exact between (by simpa using some)

/-- The mean of the execution times since the last reset never exceeds `2 ^ 64`
seconds, and is read back as a span exactly when it lies below. Execution times
below `2 ^ 64 - 1024` seconds ensure that, and a single execution time must be
below.

The mean lies among its samples, and no span is longer than `2 ^ 64` seconds
once it is rounded. It reaches that number from `2 ^ 64 - 1024` seconds on. -/
theorem average_execution_exists_iff (calls : List (Call σ)) (outside : σ) :
    let statistics := (run calls ({}, outside)).1.statistics
    let spans := timesSinceReset calls
    let mean := statistics.executionSeconds.mean
    mean = (Statistic.extend .empty (spans.map Span.toSeconds)).mean ∧
    (0 ≤ mean ∧ mean ≤ 18446744073709551616) ∧
    (statistics.averageExecution?.isSome = true ↔ mean < 18446744073709551616) ∧
    ((∀ span ∈ spans, span.seconds.toNat < 2 ^ 64 - 1024) →
      statistics.averageExecution?.isSome = true) ∧
    (∀ span, spans = [span] →
      (statistics.averageExecution?.isSome = true ↔ span.seconds.toNat < 2 ^ 64 - 1024)) := by
  intro statistics spans mean
  have same : mean = (Statistic.extend .empty (spans.map Span.toSeconds)).mean :=
    congrArg RunningMean.mean (executionSeconds_run calls outside)
  obtain ⟨finite, nonneg, atMost⟩ := mean_executionSeconds
    (fun span _ => span.value_toSeconds_le) (by positivity) le_rfl outside
  have exists_iff : statistics.averageExecution?.isSome = true ↔ value mean < 2 ^ 64 :=
    CalculatorStatistics.isSome_averageExecution?_iff finite nonneg
  have comparable : mean.isNaN = false := isNaN_of_isFinite finite
  have placed : rank (18446744073709551616 : Float).toModel.unpack =
      toLex (1, toLex (12, ((2 ^ 52 : ℕ) : ℤ))) := by decide +kernel
  have longest : value 18446744073709551616 = 2 ^ 64 := by
    rw [value_eq_of_rank (by norm_num) placed]
    norm_num
  refine ⟨same, ⟨?_, ?_⟩, ?_, ?_, ?_⟩
  · rw [le_iff_value (by decide) comparable, value_zero]
    exact nonneg
  · rw [le_iff_value comparable (by decide), longest]
    exact atMost
  · rw [exists_iff, lt_iff_value comparable (by decide), longest]
  · intro short
    obtain ⟨-, -, below⟩ := mean_executionSeconds
      (fun span listed => Span.value_toSeconds_le_of_lt (short span listed)) (Nat.cast_nonneg _)
      (by norm_num) outside
    rw [exists_iff]
    exact below.trans_lt (by norm_num)
  · intro span single
    have alone : value mean = value span.toSeconds := by
      rw [same, single, List.map_singleton]
      change value (Statistic.push .empty span.toSeconds).mean = _
      rw [Statistic.push_of_finite span.isFinite_toSeconds]
      exact (Statistic.value_next_first span.isFinite_toSeconds).2
    rw [exists_iff, alone, Span.value_toSeconds_lt_iff]

/-- The longest span, taken by one calculation, has no average: in seconds it is
`2 ^ 64`, and so is the mean. -/
theorem average_of_longest_span_missing :
    (run [.calculate 1 1 .add ⟨18446744073709551615, 999999999, by decide⟩]
      (({} : Calculator Unit), ())).1.statistics.averageExecution?.isSome = false := by
  decide +kernel

end Calculator

end Telemetry
