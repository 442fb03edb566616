import Telemetry.Proofs.ExactArithmetic

/-!
# What readings are worth

A reading that is not NaN has a value on the rational line, where an infinity
stands at `limit`. Comparing readings is comparing their values, and a reading
is finite when its value lies short of `limit`. Sums, differences, products and
quotients of finite readings have the value of the exact result, rounded once:
encoding loses nothing but numbers past the range. So what rounding does to the
order of numbers is what arithmetic does to the order of readings.
-/
namespace Telemetry.Number

open Float.Model (UnpackedFloat Format)
open Float.Model.UnpackedFloat

section Encoding

/-- The sign that was encoded is decoded again: its bit stands above the other
two fields. -/
theorem unpackSign_packComponents {format : Format} (sign : Sign)
    (exponent : BitVec format.exponentBits)
    (mantissa : BitVec format.mantissaBitsWithoutImplicit) :
    Sign.ofBitVec (unpackSign (packComponents format sign exponent mantissa)) = sign := by
  have bit : unpackSign (packComponents format sign exponent mantissa) = sign.toBitVec := by
    apply BitVec.eq_of_getLsbD_eq
    intro position within
    obtain rfl : position = 0 := by omega
    unfold unpackSign
    simp [packComponents, BitVec.getLsbD_append, BitVec.getElem_append]
  rw [bit]
  cases sign <;> rfl

/-- An infinity is decoded as it was encoded. -/
theorem unpack_packedInfinity (sign : Sign) :
    unpack Format.binary64 (packedInfinity Format.binary64 sign) = .infinity sign := by
  cases sign <;> rfl

/-- A zero is decoded as it was encoded, with its sign. -/
theorem unpack_packedZero (sign : Sign) :
    unpack Format.binary64 (packedZero Format.binary64 sign) = .zero sign := by
  cases sign <;> rfl

/-- What is not finite does not become so by encoding. An infinity and NaN have
fields of their own, which no other number shares. -/
theorem isFinite_of_unpack_pack {number : UnpackedFloat}
    (finite : (unpack Format.binary64 (pack Format.binary64 number)).isFinite = true) :
    number.isFinite = true := by
  cases number with
  | infinity sign => cases sign <;> exact absurd finite (by decide)
  | notANumber => exact absurd finite (by decide)
  | zero sign => rfl
  | finite sign mantissa exponent positive => rfl

/-- Whatever the bits are, the number decoded from them is in its form. -/
theorem canonical_unpack (bits : BitVec Format.binary64.numBits) :
    Canonical (unpack Format.binary64 bits) := by
  cases decoded : unpack Format.binary64 bits with
  | finite sign mantissa exponent positive =>
    obtain ⟨short, place, full⟩ := unpack_finite decoded
    exact ⟨short, by omega, full⟩
  | _ => trivial

variable {sign : Sign} {mantissa : ℕ} {exponent : ℤ} {positive : 0 < mantissa}

/-- The exponent field of a number in range is neither empty nor full, so that
it can be told from those of the special numbers. -/
theorem exponentField (least : -1074 ≤ exponent) (fits : exponent ≤ 971) :
    ((BitVec.ofNat 11 (exponent + 1023 + 52).toNat).toNat : ℤ) = exponent + 1075 := by
  rw [BitVec.toNat_ofNat]
  omega

/-- The fields of a number in range. Without its leading one a mantissa goes
with an empty exponent field, which then stands for the least exponent. -/
theorem pack_finite (short : mantissa < 2 ^ 53) (fits : exponent ≤ 971) :
    pack Format.binary64 (.finite sign mantissa exponent positive) =
      packComponents Format.binary64 sign
        (if 2 ^ 52 ≤ mantissa then BitVec.ofNat 11 (exponent + 1023 + 52).toNat else 0#11)
        (BitVec.ofNat 52 mantissa) := by
  have bits : mantissa.log2 ≤ 52 := log2_le_of_lt short
  have long : 52 ≤ mantissa.log2 ↔ 2 ^ 52 ≤ mantissa := Nat.le_log2 positive.ne'
  have bias : Format.binary64.exponentBias = 1023 := rfl
  have width : Format.binary64.mantissaBitsWithoutImplicit = 52 := rfl
  have capacity : 2 ^ Format.binary64.exponentBits = 2048 := rfl
  have precision : Format.binary64.mantissaBits = 53 := rfl
  unfold pack
  dsimp only
  rw [if_neg (by omega)]
  split_ifs
  · rfl
  · omega
  · omega
  · rfl

/-- A number in its form and in range is decoded to itself. Of the five ways of
decoding, its fields leave one: with the leading one it is a normal number, and
without it the number is at the least exponent. -/
theorem unpack_pack_finite (canonical : Canonical (.finite sign mantissa exponent positive))
    (fits : exponent ≤ 971) :
    unpack Format.binary64 (pack Format.binary64 (.finite sign mantissa exponent positive)) =
      .finite sign mantissa exponent positive := by
  obtain ⟨short, least, full⟩ := canonical
  have bias : Format.binary64.exponentBias = 1023 := rfl
  have width : Format.binary64.mantissaBitsWithoutImplicit = 52 := rfl
  have field := exponentField least fits
  rw [pack_finite short fits]
  have shape := decoding_unpack Format.binary64 (packComponents Format.binary64 sign
    (if 2 ^ 52 ≤ mantissa then BitVec.ofNat 11 (exponent + 1023 + 52).toNat else 0#11)
    (BitVec.ofNat 52 mantissa))
  rw [unpackExponent_packComponents, unpackMantissa_packComponents,
    unpackSign_packComponents] at shape
  generalize unpack Format.binary64 _ = number at shape ⊢
  by_cases normal : 2 ^ 52 ≤ mantissa
  · rw [if_pos normal] at shape
    have digits : (1#1 ++ BitVec.ofNat 52 mantissa).toNat = mantissa := by
      rw [toNat_leading_one, BitVec.toNat_ofNat]
      omega
    cases shape with
    | infinity same | notANumber same =>
      rw [same] at field
      change (2047 : ℤ) = _ at field
      omega
    | zero _ same | subnormal _ same =>
      rw [same] at field
      change (0 : ℤ) = _ at field
      omega
    | normal =>
      rw [UnpackedFloat.finite.injEq]
      exact ⟨rfl, digits, by omega⟩
  · rw [if_neg normal] at shape
    have digits : (BitVec.ofNat 52 mantissa).toNat = mantissa := by
      rw [BitVec.toNat_ofNat]
      omega
    cases shape with
    | infinity same | notANumber same => exact absurd same (by decide)
    | zero _ _ empty =>
      rw [empty] at digits
      exact absurd digits positive.ne
    | subnormal =>
      rw [UnpackedFloat.finite.injEq]
      exact ⟨rfl, digits, (full.resolve_left normal).symm⟩
    | normal _ raised => exact absurd rfl raised

/-- A number in its form that is past the range is decoded to an infinity of its
sign. The test for this looks at the exponent alone, because the mantissa is
full there. -/
theorem unpack_pack_beyond (beyond : 971 < exponent) :
    unpack Format.binary64 (pack Format.binary64 (.finite sign mantissa exponent positive)) =
      .infinity sign := by
  have overflow : 2 ^ Format.binary64.exponentBits ≤ (exponent + Format.binary64.exponentBias +
      Format.binary64.mantissaBitsWithoutImplicit).toNat + 1 := by
    have bias : Format.binary64.exponentBias = 1023 := rfl
    have width : Format.binary64.mantissaBitsWithoutImplicit = 52 := rfl
    have capacity : 2 ^ Format.binary64.exponentBits = 2048 := rfl
    omega
  unfold pack
  dsimp only
  rw [if_pos overflow, unpack_packedInfinity]

/-- Confining a number under a sign is cutting off its magnitude at the end of
the range. -/
theorem confined_signed (sign : Sign) {x : ℚ} (nonneg : 0 ≤ x) :
    confined (signed sign x) = signed sign (min limit x) := by
  have above : -limit ≤ min limit x :=
    le_min (neg_le_self limit_pos.le) ((neg_nonpos.mpr limit_pos.le).trans nonneg)
  have positive : confined x = min limit x := max_eq_right above
  cases sign with
  | positive => exact positive
  | negative => rw [signed, signed, confined_neg, positive]

/-- Encoding confines a number to the range and changes nothing else. Within the
range it is lossless, and past it the infinity is worth the end of the range,
which the number has passed. -/
theorem decodedValue_unpack_pack {number : UnpackedFloat} (canonical : Canonical number)
    (bounded : number.isFinite = true) :
    decodedValue (unpack Format.binary64 (pack Format.binary64 number)) =
      confined (decodedValue number) := by
  cases number with
  | infinity sign => exact absurd bounded Bool.false_ne_true
  | notANumber => exact absurd bounded Bool.false_ne_true
  | zero sign =>
    have zero := confined_signed .positive (le_refl 0)
    rw [signed, signed, min_eq_right limit_pos.le] at zero
    exact (congrArg decodedValue (unpack_packedZero sign)).trans zero.symm
  | finite sign mantissa exponent positive =>
    have nonneg : (0 : ℚ) ≤ mantissa * 2 ^ exponent :=
      mul_nonneg (Nat.cast_nonneg _) (two_zpow_pos _).le
    rw [decodedValue_finite, confined_signed sign nonneg]
    rcases le_or_gt exponent 971 with fits | beyond
    · rw [unpack_pack_finite canonical fits, decodedValue_finite, min_eq_right]
      exact (magnitude_lt_two_zpow canonical.1 exponent).le.trans (two_zpow_mono (by omega))
    · rw [unpack_pack_beyond beyond, decodedValue_infinity, min_eq_left]
      have full := canonical.2.2.resolve_right (by omega)
      exact (two_zpow_mono (by omega)).trans (two_zpow_le_magnitude full exponent)

end Encoding

section Order

variable {left right : UnpackedFloat}

/-- Of two numbers in their form, the one with the larger exponent is the
larger: its mantissa is full then, so a power of two lies between them. With
equal exponents the mantissas decide. -/
theorem magnitude_lt {mantissa mantissa' : ℕ} {exponent exponent' : ℤ}
    (short : mantissa < 2 ^ 53) (least : -1074 ≤ exponent)
    (full : 2 ^ 52 ≤ mantissa' ∨ exponent' = -1074)
    (ordered : exponent < exponent' ∨ exponent = exponent' ∧ mantissa < mantissa') :
    (mantissa : ℚ) * 2 ^ exponent < mantissa' * 2 ^ exponent' := by
  rcases ordered with lower | ⟨rfl, less⟩
  · have filled := full.resolve_right (by omega)
    calc (mantissa : ℚ) * 2 ^ exponent < 2 ^ (53 + exponent) := magnitude_lt_two_zpow short exponent
      _ ≤ 2 ^ (52 + exponent') := two_zpow_mono (by omega)
      _ ≤ mantissa' * 2 ^ exponent' := two_zpow_le_magnitude filled exponent'
  · exact mul_lt_mul_of_pos_right (by exact_mod_cast less) (two_zpow_pos _)

/-- A number with a mantissa that is not zero is not zero, at whatever place. -/
theorem magnitude_pos {mantissa : ℕ} (positive : 0 < mantissa) (exponent : ℤ) :
    (0 : ℚ) < mantissa * 2 ^ exponent :=
  mul_pos (Nat.cast_pos.mpr positive) (two_zpow_pos exponent)

/-- The rank of a number orders it as its value does: the sign decides, and of
numbers with one sign the magnitude. An infinity comes last because all finite
numbers lie short of the end of the range. -/
theorem decodedValue_lt_of_rank_lt (first : Canonical left) (second : Canonical right)
    (fits : left.isFinite = true → |decodedValue left| < limit)
    (alsoFits : right.isFinite = true → |decodedValue right| < limit)
    (ordered : rank left < rank right) : decodedValue left < decodedValue right := by
  have top := limit_pos
  rcases left with ⟨_ | _⟩ | _ | _ | ⟨_ | _, mantissa, exponent, positive⟩ <;>
    rcases right with ⟨_ | _⟩ | _ | _ | ⟨_ | _, mantissa', exponent', positive'⟩ <;>
      dsimp only [rank, decodedValue, signed, UnpackedFloat.isFinite] at fits alsoFits ordered ⊢ <;>
      simp [Prod.Lex.lt_iff, abs_lt, abs_of_pos (two_zpow_pos _)] at fits alsoFits ordered ⊢
  case infinity.negative.infinity.positive | infinity.negative.notANumber
      | infinity.negative.zero | notANumber.infinity.positive | zero.infinity.positive => exact top
  case infinity.negative.finite.negative => exact alsoFits
  case finite.positive.infinity.positive => exact fits
  case infinity.negative.finite.positive =>
    exact (neg_lt_zero.mpr top).trans (magnitude_pos positive' exponent')
  case finite.negative.infinity.positive =>
    exact (neg_lt_zero.mpr (magnitude_pos positive exponent)).trans top
  case notANumber.finite.positive | zero.finite.positive => exact magnitude_pos positive' exponent'
  case finite.negative.notANumber | finite.negative.zero => exact magnitude_pos positive exponent
  case finite.negative.finite.positive =>
    exact (neg_lt_zero.mpr (magnitude_pos positive exponent)).trans
      (magnitude_pos positive' exponent')
  case finite.negative.finite.negative =>
    exact magnitude_lt second.1 second.2.1 first.2.2 (by omega)
  case finite.positive.finite.positive =>
    exact magnitude_lt first.1 first.2.1 second.2.2 ordered

/-- Numbers of one rank are worth the same. The rank forgets only the sign of a
zero and whether there is a number at all. -/
theorem decodedValue_eq_of_rank_eq (same : rank left = rank right) :
    decodedValue left = decodedValue right := by
  rcases left with ⟨_ | _⟩ | _ | _ | ⟨_ | _, mantissa, exponent, positive⟩ <;>
    rcases right with ⟨_ | _⟩ | _ | _ | ⟨_ | _, mantissa', exponent', positive'⟩ <;>
      dsimp only [rank, decodedValue, signed] at same ⊢ <;> simp at same ⊢ <;> simp [same]

end Order

section Readings

/-- What a reading is worth. -/
def value (x : Float) : ℚ := decodedValue x.toModel.unpack

variable {x y : Float}

/-- A finite reading lies short of the end of the range, by its mantissa of 53
bits and its bounded exponent. -/
theorem abs_value_lt (finite : x.isFinite = true) : |value x| < limit := by
  have inRange := inRange_of_isFinite finite
  unfold value
  cases decoded : x.toModel.unpack with
  | infinity sign => rw [decoded] at inRange; exact inRange.elim
  | notANumber => rw [decoded] at inRange; exact inRange.elim
  | zero sign =>
    rw [decodedValue_zero, abs_zero]
    exact limit_pos
  | finite sign mantissa exponent positive =>
    rw [decoded] at inRange
    rw [decodedValue_finite, abs_signed _ _ (magnitude_pos positive exponent).le]
    have place := inRange.2
    exact (magnitude_lt_two_zpow inRange.1 exponent).trans_le (two_zpow_mono (by omega))

/-- Ranks order readings as their values do: readings are decoded in their form
and within the range. -/
theorem value_lt_of_rank_lt (ordered : rank x.toModel.unpack < rank y.toModel.unpack) :
    value x < value y :=
  decodedValue_lt_of_rank_lt (canonical_unpack _) (canonical_unpack _) abs_value_lt abs_value_lt
    ordered

/-- The strict order of comparable readings is that of their values. One
direction is known; if the ranks were not in order, the values would be equal or
in the other order. -/
theorem lt_iff_value (left : x.isNaN = false) (right : y.isNaN = false) :
    x < y ↔ value x < value y := by
  rw [lt_iff_compare, compare_eq_lt_iff left right]
  refine ⟨value_lt_of_rank_lt, ?_⟩
  intro ordered
  by_contra reversed
  rcases (not_lt.mp reversed).lt_or_eq with above | same
  · exact ordered.not_gt (value_lt_of_rank_lt above)
  · exact ordered.ne (decodedValue_eq_of_rank_eq same).symm

/-- The order of comparable readings is that of their values, as the strict
order is. -/
theorem le_iff_value (left : x.isNaN = false) (right : y.isNaN = false) :
    x ≤ y ↔ value x ≤ value y := by
  rw [le_iff_not_lt right left, lt_iff_value right left, not_lt]

/-- A comparable reading is finite exactly when its value lies short of the end
of the range. The end itself is the value of the infinities and of nothing
else. -/
theorem isFinite_iff_value (comparable : x.isNaN = false) :
    x.isFinite = true ↔ |value x| < limit := by
  refine ⟨abs_value_lt, ?_⟩
  intro short
  change x.toModel.unpack.isFinite = true
  unfold value at short
  cases decoded : x.toModel.unpack with
  | infinity sign =>
    rw [decoded, decodedValue_infinity, abs_signed _ _ limit_pos.le] at short
    exact absurd short (lt_irrefl _)
  | notANumber =>
    change x.toModel.unpack.isNaN = false at comparable
    rw [decoded] at comparable
    cases comparable
  | zero sign => rfl
  | finite sign mantissa exponent positive => rfl

/-- Whether a comparable reading is finite can be seen from its value alone. -/
theorem isFinite_of_value_eq (comparable : y.isNaN = false) (finite : x.isFinite = true)
    (same : value y = value x) : y.isFinite = true := by
  rw [isFinite_iff_value comparable, same]
  exact abs_value_lt finite

/-- A number within the range is not cut off. -/
theorem confined_of_abs_le {x : ℚ} (within : |x| ≤ limit) : confined x = x := by
  obtain ⟨above, below⟩ := abs_le.mp within
  rw [confined, min_eq_right below, max_eq_right above]

/-- What a reading is worth, read off its rank. For a given reading the rank can
be computed, which its value as a rational number cannot as easily. -/
theorem value_eq_of_rank {x : Float} {mantissa : ℕ} {exponent : ℤ} (positive : 0 < mantissa)
    (placed : rank x.toModel.unpack = toLex (1, toLex (exponent, (mantissa : ℤ)))) :
    value x = mantissa * 2 ^ exponent := by
  have same : rank x.toModel.unpack = rank (.finite .positive mantissa exponent positive) := placed
  exact decodedValue_eq_of_rank_eq same

/-- Rounding a reading changes nothing: it has at most 53 digits and lies within
the range. -/
theorem rounded_value (finite : x.isFinite = true) : rounded (value x) = value x := by
  have own : value x = nearest (value x) := ((canonical_unpack _).rounds finite).value
  rw [rounded, ← own, confined_of_abs_le (abs_value_lt finite).le]

/-- Every finite reading is a whole number of the least places. So the
difference of two readings that are not equal is at least one such place. -/
theorem value_eq_whole (finite : x.isFinite = true) :
    ∃ whole : ℤ, value x = whole * 2 ^ (-1074 : ℤ) := by
  change x.toModel.unpack.isFinite = true at finite
  have canonical : Canonical x.toModel.unpack := canonical_unpack _
  unfold value
  cases decoded : x.toModel.unpack with
  | infinity sign => rw [decoded] at finite; cases finite
  | notANumber => rw [decoded] at finite; cases finite
  | zero sign => exact ⟨0, by rw [decodedValue_zero, Int.cast_zero, zero_mul]⟩
  | finite sign mantissa exponent positive =>
    rw [decoded] at canonical
    have aligned := aligned_cast sign mantissa canonical.2.1
    exact ⟨_, aligned.symm⟩

/-- Encoding a rounded number yields the exact one rounded to 64 bits: the
digits have been rounded already, and encoding confines the result. -/
theorem Rounds.encoded {number : UnpackedFloat} {exact : ℚ} (rounds : Rounds number exact) :
    decodedValue (unpack Format.binary64 (pack Format.binary64 number)) = rounded exact := by
  rw [decodedValue_unpack_pack rounds.canonical rounds.bounded, rounds.value, rounded]

variable (first : x.isFinite = true) (second : y.isFinite = true)

include first second

/-- A sum of finite readings is worth the exact sum, rounded once. If it
overflows, the rounding says so by the end of the range. -/
theorem value_add : value (x + y) = rounded (value x + value y) :=
  (rounds_add (canonical_unpack _) (canonical_unpack _) first second).encoded

/-- A difference of finite readings is worth the exact difference, rounded
once. -/
theorem value_sub : value (x - y) = rounded (value x - value y) :=
  (rounds_sub (canonical_unpack _) (canonical_unpack _) first second).encoded

/-- A product of finite readings is worth the exact product, rounded once. -/
theorem value_mul : value (x * y) = rounded (value x * value y) :=
  (rounds_mul (canonical_unpack _) (canonical_unpack _) first second).encoded

/-- A quotient of finite readings is worth the exact quotient, rounded once, if
the divisor is not zero. -/
theorem value_div (nonzero : value y ≠ 0) : value (x / y) = rounded (value x / value y) :=
  (rounds_div first second nonzero).encoded

/-- A difference of finite readings can be compared. It may overflow, but it is
a number before it is encoded, and encoding makes no NaN. -/
theorem isNaN_sub : (x - y).isNaN = false :=
  isNaN_unpack_pack _ (isNaN_of_decodedFinite
    (rounds_sub (canonical_unpack _) (canonical_unpack _) first second).bounded)

end Readings

section Overflow

variable {left right : UnpackedFloat} {x y : Float}

/-- A finite sum has finite summands. An infinity on one side gives an infinity
or NaN. -/
theorem isFinite_of_decodedSum (finite : (add Format.binary64 left right).isFinite = true) :
    left.isFinite = true ∧ right.isFinite = true := by
  cases left with
  | notANumber => cases right <;> cases finite
  | infinity sign =>
    cases right with
    | infinity other => cases sign <;> cases other <;> cases finite
    | _ => cases finite
  | zero sign =>
    cases right with
    | infinity other => cases finite
    | notANumber => cases finite
    | _ => exact ⟨rfl, rfl⟩
  | finite sign mantissa exponent positive =>
    cases right with
    | infinity other => cases finite
    | notANumber => cases finite
    | _ => exact ⟨rfl, rfl⟩

/-- A finite quotient has a finite dividend. Its divisor may be infinite, and
the quotient is then a zero. -/
theorem isFinite_of_decodedQuotient (finite : (div Format.binary64 left right).isFinite = true) :
    left.isFinite = true := by
  cases left with
  | notANumber => cases right <;> cases finite
  | infinity sign => cases right <;> cases finite
  | zero sign => rfl
  | finite sign mantissa exponent positive => rfl

/-- What was lost by overflow is not regained by adding: if the sum is finite,
so were the summands. -/
theorem isFinite_of_add (finite : (x + y).isFinite = true) :
    x.isFinite = true ∧ y.isFinite = true :=
  isFinite_of_decodedSum (isFinite_of_unpack_pack finite)

/-- Nor is it regained by subtracting, since a difference is a sum with the
opposite. -/
theorem isFinite_of_sub (finite : (x - y).isFinite = true) :
    x.isFinite = true ∧ y.isFinite = true := by
  have difference : (sub Format.binary64 x.toModel.unpack y.toModel.unpack).isFinite = true :=
    isFinite_of_unpack_pack finite
  rw [difference_eq_sum] at difference
  obtain ⟨first, second⟩ := isFinite_of_decodedSum difference
  refine ⟨first, ?_⟩
  change y.toModel.unpack.isFinite = true
  cases decoded : y.toModel.unpack <;> rw [decoded] at second <;> exact second

/-- Nor by dividing: a finite quotient has a finite dividend. -/
theorem isFinite_of_div (finite : (x / y).isFinite = true) : x.isFinite = true :=
  isFinite_of_decodedQuotient (isFinite_of_unpack_pack finite)

/-- A quotient by an infinity vanishes. This is the one case in which an
infinite operand does not show in the result. -/
theorem decodedQuotient_infinite (finite : left.isFinite = true)
    (unbounded : right.isFinite = false) (comparable : right.isNaN = false) :
    ∃ sign, div Format.binary64 left right = .zero sign := by
  cases right with
  | zero other => cases unbounded
  | finite other mantissa exponent positive => cases unbounded
  | notANumber => cases comparable
  | infinity other =>
    cases left with
    | infinity sign => cases finite
    | notANumber => cases finite
    | zero sign => exact ⟨sign / other, rfl⟩
    | finite sign mantissa exponent positive => exact ⟨sign / other, rfl⟩

/-- The same for readings: the zero survives encoding. -/
theorem unpack_div_infinite (finite : x.isFinite = true) (unbounded : y.isFinite = false)
    (comparable : y.isNaN = false) : ∃ sign, (x / y).toModel.unpack = .zero sign := by
  obtain ⟨sign, zero⟩ := decodedQuotient_infinite finite unbounded comparable
  exact ⟨sign, (congrArg (fun number => unpack Format.binary64 (pack Format.binary64 number))
    zero).trans (unpack_packedZero sign)⟩

end Overflow

section Counts

/-- A word of 64 bits becomes the nearest reading: it is normalized as a whole
number. -/
theorem value_toFloat (number : UInt64) : value number.toFloat = rounded number.toNat := by
  have whole := (rounds_normalize .positive number.toNat 0).encoded
  rw [zpow_zero, mul_one, Int.cast_natCast] at whole
  exact whole

/-- A count with at most 53 digits is kept as it is. Counts of samples stay
below this for all times that matter. -/
theorem rounded_natCast {count : ℕ} (small : count < 2 ^ 53) : rounded count = count := by
  have short := nearestMagnitude_of_short small (by norm_num : (-1074 : ℤ) ≤ 0)
  rw [zpow_zero, mul_one] at short
  have within : |(count : ℚ)| ≤ limit := by
    rw [abs_of_nonneg (Nat.cast_nonneg count)]
    calc (count : ℚ) ≤ 2 ^ (53 : ℤ) := by exact_mod_cast small.le
      _ ≤ limit := two_zpow_mono (by norm_num)
  rw [rounded, nearest_of_nonneg (Nat.cast_nonneg count), short, confined_of_abs_le within]

/-- A product of readings is the decoded product, encoded and decoded again. -/
theorem unpack_mul (x y : Float) : (x * y).toModel.unpack =
    unpack Format.binary64 (pack Format.binary64
      (mul Format.binary64 x.toModel.unpack y.toModel.unpack)) := rfl

/-- A small count is converted as a word and multiplied by one. Neither changes
it, since it has at most 53 digits. -/
theorem rounds_smallCount {count : ℕ} (small : count < 2 ^ 53) :
    Rounds (mul Format.binary64 count.toUInt64.toFloat.toModel.unpack
      (Float.ofBits 0x3FF0000000000000).toModel.unpack) count := by
  have word : count.toUInt64.toNat = count := by
    rw [Nat.toUInt64, UInt64.toNat_ofNat']
    exact Nat.mod_eq_of_lt (small.trans (by norm_num))
  have worth : value count.toUInt64.toFloat = count := by
    rw [value_toFloat, word, rounded_natCast small]
  have placed : rank (Float.ofBits 0x3FF0000000000000).toModel.unpack =
      toLex (1, toLex (-52, ((2 ^ 52 : ℕ) : ℤ))) := by decide
  have one : value (Float.ofBits 0x3FF0000000000000) = 1 := by
    rw [value_eq_of_rank (by norm_num) placed]
    norm_num
  have rounds : Rounds (mul Format.binary64 count.toUInt64.toFloat.toModel.unpack
      (Float.ofBits 0x3FF0000000000000).toModel.unpack)
        (value count.toUInt64.toFloat * value (Float.ofBits 0x3FF0000000000000)) :=
    rounds_mul (canonical_unpack _) (canonical_unpack _) (isFinite_of_inRange (inRange_toFloat _))
      (by decide)
  rwa [worth, one, mul_one] at rounds

/-- A large count is rounded as a whole number. It is lengthened first by more
digits than a mantissa holds, so that only its own digits are rounded away. -/
theorem rounds_largeCount {count : ℕ} (positive : 0 < count) :
    Rounds (UnpackedFloat.ofScientific Format.binary64 count 0) count := by
  have computed : UnpackedFloat.ofScientific Format.binary64 count 0 =
      roundWithAccuracy Format.binary64 .positive (count <<< 53 * 1) (-53 + 0) .exact := by
    have capacity : (2 ^ Format.binary64.exponentBits : ℤ) = 2048 := rfl
    unfold UnpackedFloat.ofScientific
    rw [dif_neg positive.ne', if_neg (by omega), if_neg (by omega), if_pos le_rfl]
    rfl
  have same : ((count <<< 53 : ℕ) : ℚ) * 2 ^ (-53 : ℤ) = count := by
    have shifted := shiftLeft_mul_two_zpow count 53 0
    rwa [zpow_zero, mul_one] at shifted
  have digits := log_mul_two_zpow (Nat.floor_natCast (R := ℚ) count) positive 0
  rw [zpow_zero, mul_one] at digits
  have ready : -53 ≤ lastPlace (((count <<< 53 : ℕ) : ℚ) * 2 ^ (-53 : ℤ)) := by
    rw [same, lastPlace]
    omega
  have nonzero : (0 : ℚ) < (count <<< 53 : ℕ) := by
    rw [Nat.shiftLeft_eq]
    positivity
  rw [computed, mul_one, add_zero, ← same]
  exact rounds_roundWithAccuracy .positive nonzero (extended_natCast _) ready

/-- A count becomes the nearest number to it, by whichever of the two ways it is
converted. -/
theorem exists_rounds_ofNat (count : ℕ) :
    ∃ number, (Float.ofNat count).toModel.unpack =
      unpack Format.binary64 (pack Format.binary64 number) ∧ Rounds number count := by
  by_cases small : count < 2 ^ 53
  · have product : Float.ofNat count = count.toUInt64.toFloat * Float.ofBits 0x3FF0000000000000 :=
      dif_pos ⟨small, by decide⟩
    rw [product, unpack_mul]
    exact ⟨_, rfl, rounds_smallCount small⟩
  · have whole : Float.ofNat count = Float.ofModel (Float.Model.ofScientific count 0) :=
      dif_neg fun both => small both.1
    rw [whole]
    exact ⟨_, rfl, rounds_largeCount (by omega)⟩

/-- A count is worth the nearest number to it, past the range the end of the
range. -/
theorem value_ofNat (count : ℕ) : value (Float.ofNat count) = rounded count := by
  obtain ⟨number, decoded, rounds⟩ := exists_rounds_ofNat count
  rw [value, decoded, rounds.encoded]

/-- The reading zero is worth zero. -/
theorem value_zero : value 0 = 0 := (value_ofNat 0).trans rounded_zero

/-- The reading one is worth one: a single digit is not rounded. -/
theorem value_one : value 1 = 1 := by
  have one := (value_ofNat 1).trans (rounded_natCast (by norm_num))
  rwa [Nat.cast_one] at one

/-- What a count is rounded to, read off its encoding. This makes rounding
computable where a concrete number is asked for. -/
theorem rounded_of_rank {count mantissa : ℕ} {exponent : ℤ} (positive : 0 < mantissa)
    (placed : rank (Float.ofNat count).toModel.unpack =
      toLex (1, toLex (exponent, (mantissa : ℤ)))) :
    rounded count = mantissa * 2 ^ exponent :=
  (value_ofNat count).symm.trans (value_eq_of_rank positive placed)

/-- A count can be compared once it is a reading, also if it is past the
range. -/
theorem isNaN_ofNat (count : ℕ) : (Float.ofNat count).isNaN = false := by
  obtain ⟨number, decoded, rounds⟩ := exists_rounds_ofNat count
  change (Float.ofNat count).toModel.unpack.isNaN = false
  rw [decoded]
  exact isNaN_unpack_pack _ (isNaN_of_decodedFinite rounds.bounded)

end Counts

end Telemetry.Number
