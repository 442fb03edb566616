import Mathlib.Algebra.Order.Floor.Semifield
import Mathlib.Tactic.FieldSimp
import Telemetry.Proofs.FloatRange
import Telemetry.Proofs.NearestNumber

/-!
# Arithmetic on readings is exact arithmetic, rounded

Every number that is not NaN has a value on the rational line, where an infinity
stands at `limit`. Comparing numbers is comparing their values. The sum, the
difference, the product and the quotient of finite numbers have the value of the
exact result, rounded once. What is known of rounding is thereby known of
arithmetic on readings, above all that it respects the order.

Rounding works on a mantissa and two bits that tell what lies behind it. These
bits are read here as a rational number, so that shifting a mantissa is dividing
that number. After rounding, the mantissa fills its 53 bits unless the exponent
is the least one; in this form encoding loses nothing but numbers past the
range, which become infinities.
-/
namespace Telemetry.Number

open Float.Model (UnpackedFloat Format totalExponent)
open Float.Model.UnpackedFloat

section Values

/-- A number under a sign. -/
def signed : Sign → ℚ → ℚ
  | .negative, x => -x
  | .positive, x => x

/-- What a decoded number is worth. NaN is worth nothing. -/
def decodedValue : UnpackedFloat → ℚ
  | .infinity sign => signed sign limit
  | .notANumber | .zero _ => 0
  | .finite sign mantissa exponent _ => signed sign (mantissa * 2 ^ exponent)

/-- An infinity is worth the end of the range on its side, which no finite
number reaches. -/
theorem decodedValue_infinity (sign : Sign) : decodedValue (.infinity sign) = signed sign limit :=
  rfl

/-- Both zeros are worth the same. -/
theorem decodedValue_zero (sign : Sign) : decodedValue (.zero sign) = 0 :=
  rfl

/-- A finite number is worth its mantissa in units of its last place, under its
sign. -/
theorem decodedValue_finite (sign : Sign) (mantissa : ℕ) (exponent : ℤ) (positive : 0 < mantissa) :
    decodedValue (.finite sign mantissa exponent positive) =
      signed sign (mantissa * 2 ^ exponent) :=
  rfl

/-- The form in which numbers are decoded: the mantissa is full, unless the
exponent is the least one. -/
def Canonical : UnpackedFloat → Prop
  | .finite _ mantissa exponent _ =>
    mantissa < 2 ^ 53 ∧ -1074 ≤ exponent ∧ (2 ^ 52 ≤ mantissa ∨ exponent = -1074)
  | _ => True

/-- A decoded number is an exact one rounded to 53 digits, its range left
aside. -/
structure Rounds (number : UnpackedFloat) (x : ℚ) : Prop where
  bounded : number.isFinite = true
  canonical : Canonical number
  value : decodedValue number = nearest x

variable (sign other : Sign) (x y : ℚ)

/-- Zero has no sign of its own on the rational line, so that the two zeros
meet. -/
@[simp] theorem signed_zero : signed sign 0 = 0 := by
  cases sign <;> simp [signed]

/-- Signs multiply as numbers do: a product is negative if exactly one factor
is. -/
theorem signed_mul : signed (sign * other) (x * y) = signed sign x * signed other y := by
  cases sign <;> cases other
  · exact (neg_mul_neg x y).symm
  · exact (neg_mul x y).symm
  · exact (mul_neg x y).symm
  · rfl

/-- Signs divide like they multiply. A zero divisor is no exception, since both
sides are then zero. -/
theorem signed_div : signed (sign / other) (x / y) = signed sign x / signed other y := by
  cases sign <;> cases other
  · exact (neg_div_neg_eq x y).symm
  · exact (neg_div y x).symm
  · exact (div_neg x).symm
  · rfl

/-- The opposite sign gives the opposite number. -/
theorem signed_neg : signed (-sign) x = -signed sign x := by
  cases sign
  · exact (neg_neg x).symm
  · rfl

/-- A sign is forgotten by the magnitude, of a number that was none before. -/
theorem abs_signed (nonneg : 0 ≤ x) : |signed sign x| = x := by
  cases sign
  · rw [signed, abs_neg, abs_of_nonneg nonneg]
  · exact abs_of_nonneg nonneg

/-- A factor without a sign may be put under the sign or in front of it. -/
theorem signed_mul_right : signed sign x * y = signed sign (x * y) := by
  cases sign
  · exact neg_mul x y
  · rfl

/-- A sign that is applied to a whole number is the same sign on the rational
line. -/
theorem apply_cast (number : ℤ) : ((sign.apply number : ℤ) : ℚ) = signed sign number := by
  cases sign <;> simp [Sign.apply, signed]

/-- Rounding commutes with a sign, because it is symmetric about zero. So it is
enough to round magnitudes. -/
theorem nearest_signed : nearest (signed sign x) = signed sign (nearest x) := by
  cases sign
  · exact nearest_neg x
  · rfl

end Values

section Residues

/-- The mantissa of an exact number, with the bit behind it and whether anything
lies behind that bit. -/
def extended (x : ℚ) : ExtendedMantissa :=
  ⟨⌊x⌋₊, decide (1 / 2 ≤ x - ⌊x⌋₊), decide (x - ⌊x⌋₊ ≠ 0 ∧ x - ⌊x⌋₊ ≠ 1 / 2)⟩

/-- A mantissa that is exact has nothing behind it: neither the bit nor anything
further is set. -/
theorem extended_natCast (number : ℕ) :
    ExtendedMantissa.ofMantissaAndAccuracy number .exact = extended number := by
  simp [extended, ExtendedMantissa.ofMantissaAndAccuracy]

/-- The accuracy of a whole quotient tells what the remainder is. It is exact if
there is none, and otherwise it says on which side of half the divisor the
remainder lies; these are the two bits behind the mantissa of the rational
quotient. -/
theorem extended_fraction (dividend : ℕ) {divisor : ℕ} (positive : 0 < divisor) :
    ExtendedMantissa.ofMantissaAndAccuracy (dividend / divisor)
        (accuracyOfFraction (dividend % divisor) divisor) =
      extended ((dividend : ℚ) / divisor) := by
  have nonzero : (0 : ℚ) < divisor := Nat.cast_pos.mpr positive
  have whole : ⌊(dividend : ℚ) / divisor⌋₊ = dividend / divisor := Nat.floor_div_eq_div _ _
  have rest : (dividend : ℚ) / divisor - (dividend / divisor : ℕ) =
      (dividend % divisor : ℕ) / divisor := by
    rw [sub_eq_iff_eq_add, div_add' _ _ _ nonzero.ne', div_left_inj' nonzero.ne']
    exact_mod_cast (Nat.mod_add_div' dividend divisor).symm
  have half : (1 : ℚ) / 2 ≤ (dividend % divisor : ℕ) / divisor ↔
      divisor ≤ 2 * (dividend % divisor) := by
    rw [div_le_div_iff₀ two_pos nonzero, one_mul, mul_comm]
    exact_mod_cast Iff.rfl
  have exactly : ((dividend % divisor : ℕ) : ℚ) / divisor = 1 / 2 ↔
      2 * (dividend % divisor) = divisor := by
    rw [div_eq_div_iff nonzero.ne' two_ne_zero, one_mul, mul_comm]
    exact_mod_cast Iff.rfl
  have none : ((dividend % divisor : ℕ) : ℚ) / divisor = 0 ↔ dividend % divisor = 0 := by
    rw [div_eq_zero_iff, or_iff_left nonzero.ne', Nat.cast_eq_zero]
  unfold extended accuracyOfFraction
  rw [whole, rest]
  simp only [half, ne_eq, none, exactly]
  by_cases empty : dividend % divisor = 0
  · simp [ExtendedMantissa.ofMantissaAndAccuracy, empty, positive.ne']
  · rw [if_neg empty]
    cases compared : compare (2 * (dividend % divisor)) divisor with
    | lt =>
      have below := Nat.compare_eq_lt.mp compared
      simp [ExtendedMantissa.ofMantissaAndAccuracy, empty]
      omega
    | eq =>
      have same := Nat.compare_eq_eq.mp compared
      simp [ExtendedMantissa.ofMantissaAndAccuracy, same]
    | gt =>
      have above := Nat.compare_eq_gt.mp compared
      simp [ExtendedMantissa.ofMantissaAndAccuracy, empty]
      omega

/-- Rounding a mantissa by the two bits behind it is rounding the rational
number. The bits tell whether the fraction is below a half, a half or above, and
a half goes to the even mantissa. -/
theorem roundedMantissa_extended (x : ℚ) : (extended x).roundedMantissa = halfEven x := by
  unfold extended halfEven
  by_cases below : x - ⌊x⌋₊ < 1 / 2
  · rw [if_pos below, decide_eq_false (not_le.mpr below)]
    cases decide (x - ⌊x⌋₊ ≠ 0 ∧ x - ⌊x⌋₊ ≠ 1 / 2) <;> rfl
  · rw [if_neg below, decide_eq_true (not_lt.mp below)]
    by_cases half : x - ⌊x⌋₊ = 1 / 2
    · rw [if_pos half, decide_eq_false (fun rest => rest.2 half)]
      rfl
    · have rest : x - ⌊x⌋₊ ≠ 0 ∧ x - ⌊x⌋₊ ≠ 1 / 2 := by
        refine ⟨fun nothing => below ?_, half⟩
        rw [nothing]
        norm_num
      rw [if_neg half, decide_eq_true rest]
      rfl

variable {x : ℚ}

/-- Shifting by one place is halving: the last digit becomes the bit behind the
mantissa, and what lay behind it lies behind that bit. -/
theorem shiftRightOne_extended (nonneg : 0 ≤ x) :
    (extended x).shiftRightOne = extended (x / 2) := by
  have low := Nat.floor_le nonneg
  have high := Nat.lt_floor_add_one x
  have whole : ⌊x / 2⌋₊ = ⌊x⌋₊ / 2 := Nat.floor_div_ofNat x 2
  have rest : x / 2 - (⌊x⌋₊ / 2 : ℕ) = ((⌊x⌋₊ % 2 : ℕ) + (x - ⌊x⌋₊)) / 2 := by
    have digits : ((⌊x⌋₊ % 2 : ℕ) : ℚ) + 2 * (⌊x⌋₊ / 2 : ℕ) = ⌊x⌋₊ := by
      exact_mod_cast Nat.mod_add_div ⌊x⌋₊ 2
    linarith
  have bit : (⌊x⌋₊ % 2 != 0) = decide (1 / 2 ≤ ((⌊x⌋₊ % 2 : ℕ) + (x - ⌊x⌋₊)) / 2) := by
    rcases Nat.mod_two_eq_zero_or_one ⌊x⌋₊ with even | odd
    · rw [even, decide_eq_false (by push_cast; linarith)]
      rfl
    · rw [odd, decide_eq_true (by push_cast; linarith)]
      rfl
  have behind : (decide (1 / 2 ≤ x - ⌊x⌋₊) || decide (x - ⌊x⌋₊ ≠ 0 ∧ x - ⌊x⌋₊ ≠ 1 / 2)) =
      decide (((⌊x⌋₊ % 2 : ℕ) + (x - ⌊x⌋₊)) / 2 ≠ 0 ∧
        ((⌊x⌋₊ % 2 : ℕ) + (x - ⌊x⌋₊)) / 2 ≠ 1 / 2) := by
    rw [← Bool.decide_or, decide_eq_decide]
    -- Both say that something lies behind the last digit.
    rcases Nat.mod_two_eq_zero_or_one ⌊x⌋₊ with even | odd
    · rw [even]
      grind
    · rw [odd]
      grind
  unfold extended ExtendedMantissa.shiftRightOne
  rw [whole, rest, ← bit, ← behind]

/-- Shifting by any number of places divides by the power of two. Each single
shift halves, and loses nothing of whether there is a rest. -/
theorem shiftRight_extended (nonneg : 0 ≤ x) (count : ℕ) :
    extended x >>> count = extended (x / 2 ^ count) := by
  induction count with
  | zero => rw [pow_zero, div_one]; rfl
  | succ count inductionHypothesis =>
    change (extended x >>> count).shiftRightOne = _
    rw [inductionHypothesis, shiftRightOne_extended (by positivity), div_div, ← pow_succ]

end Residues

section Rounding

variable {x : ℚ} {mantissa : ℕ} {exponent : ℤ} {accuracy : Accuracy} (sign : Sign)

/-- The leading digit of a number with a mantissa is that of the mantissa, moved
by the exponent. What lies behind the mantissa does not reach the next whole
number, so it does not reach the next power of two either. -/
theorem log_mul_two_zpow (floor : ⌊x⌋₊ = mantissa) (nonzero : 0 < mantissa) (exponent : ℤ) :
    Int.log 2 (x * 2 ^ exponent) = mantissa.log2 + exponent := by
  have least : (1 : ℚ) ≤ x := Nat.floor_pos.mp (floor ▸ nonzero)
  have positive : 0 < x * 2 ^ exponent := mul_pos (one_pos.trans_le least) (two_zpow_pos _)
  have low : (2 : ℚ) ^ (mantissa.log2 : ℤ) ≤ x := by
    have below : 2 ^ mantissa.log2 ≤ ⌊x⌋₊ := (Nat.log2_self_le nonzero.ne').trans_eq floor.symm
    rw [zpow_natCast]
    exact_mod_cast (Nat.le_floor_iff (one_pos.trans_le least).le).mp below
  have high : x < 2 ^ (mantissa.log2 + 1 : ℤ) := by
    have above : ⌊x⌋₊ < 2 ^ (mantissa.log2 + 1) := floor ▸ Nat.lt_log2_self
    have beyond := (Nat.floor_lt (one_pos.trans_le least).le).mp above
    exact_mod_cast beyond
  apply le_antisymm
  · apply Int.lt_add_one_iff.mp
    apply (Int.lt_zpow_iff_log_lt (R := ℚ) one_lt_two positive).mp
    push_cast
    rw [add_right_comm, two_zpow_add]
    exact mul_lt_mul_of_pos_right high (two_zpow_pos _)
  · apply (Int.zpow_le_iff_le_log (R := ℚ) one_lt_two positive).mp
    push_cast
    rw [two_zpow_add]
    exact mul_le_mul_of_nonneg_right low (two_zpow_pos _).le

/-- A mantissa with enough digits is shortened to the last place of its number.
If the mantissa is zero, the number lies below its own unit, and only the lowest
place can be the last one. -/
theorem exponent_add_surplus (positive : 0 < x) (floor : ⌊x⌋₊ = mantissa)
    (ready : exponent ≤ lastPlace (x * 2 ^ exponent)) :
    exponent + surplus mantissa exponent = lastPlace (x * 2 ^ exponent) := by
  unfold lastPlace surplus at *
  rcases Nat.eq_zero_or_pos mantissa with rfl | nonzero
  · have small : x * 2 ^ exponent < 2 ^ exponent :=
      mul_lt_of_lt_one_left (two_zpow_pos _) (Nat.floor_eq_zero.mp floor)
    have below : Int.log 2 (x * 2 ^ exponent) < exponent :=
      (Int.lt_zpow_iff_log_lt (R := ℚ) one_lt_two (mul_pos positive (two_zpow_pos _))).mp small
    rw [Nat.log2_zero]
    omega
  · rw [log_mul_two_zpow floor nonzero] at *
    omega

/-- A shortened mantissa with its two bits is the exact number in units of its
last place. -/
theorem shortened_eq_extended (positive : 0 < x)
    (given : ExtendedMantissa.ofMantissaAndAccuracy mantissa accuracy = extended x)
    (place : exponent + surplus mantissa exponent = lastPlace (x * 2 ^ exponent)) :
    shortened mantissa exponent accuracy =
      extended (x * 2 ^ exponent / 2 ^ lastPlace (x * 2 ^ exponent)) := by
  rw [shortened, given, shiftRight_extended positive.le, ← place, two_zpow_add, zpow_natCast,
    mul_comm x, mul_div_mul_left _ _ (two_zpow_pos _).ne']

/-- A rounded mantissa in its final form: a carry out of the 53 bits is shifted
back. -/
def settle (mantissa : ℕ) (exponent : ℤ) : UnpackedFloat :=
  if zero : mantissa / 2 ^ surplus mantissa exponent = 0 then .zero sign
  else .finite sign (mantissa / 2 ^ surplus mantissa exponent)
    (exponent + surplus mantissa exponent) (Nat.pos_of_ne_zero zero)

/-- Rounding is shortening the mantissa, rounding it by its two bits and
shifting back a carry. -/
theorem roundWithAccuracy_eq_settle :
    roundWithAccuracy Format.binary64 sign mantissa exponent accuracy =
      settle sign (shortened mantissa exponent accuracy).roundedMantissa
        (exponent + surplus mantissa exponent) := by
  rw [roundWithAccuracy_eq, shiftToTargetExponent_eq, shiftToTargetExponent_eq,
    mantissa_shortened]
  rfl

/-- A carry is shifted back without loss: a mantissa of 53 bits is not shifted
at all, and a carried one is a power of two. -/
theorem two_pow_surplus_dvd (least : -1074 ≤ exponent) (carried : mantissa ≤ 2 ^ 53) :
    2 ^ surplus mantissa exponent ∣ mantissa := by
  have few := surplus_le least carried
  rcases carried.lt_or_eq with short | rfl
  · rw [Nat.div_eq_of_lt short, Nat.le_zero] at few
    rw [few]
    exact one_dvd mantissa
  · exact Nat.pow_dvd_pow 2 (by omega)

/-- Bringing a mantissa to its final form does not change what it is worth. The
bits that are shifted out are zeros, and the exponent makes up for them. -/
theorem decodedValue_settle (least : -1074 ≤ exponent) (carried : mantissa ≤ 2 ^ 53) :
    decodedValue (settle sign mantissa exponent) = signed sign (mantissa * 2 ^ exponent) := by
  have whole : mantissa / 2 ^ surplus mantissa exponent * 2 ^ surplus mantissa exponent =
      mantissa := Nat.div_mul_cancel (two_pow_surplus_dvd least carried)
  unfold settle
  by_cases zero : mantissa / 2 ^ surplus mantissa exponent = 0
  · rw [dif_pos zero]
    rw [zero, Nat.zero_mul] at whole
    rw [← whole, Nat.cast_zero, zero_mul, signed_zero]
    rfl
  · rw [dif_neg zero, decodedValue_finite, add_comm, two_zpow_add, zpow_natCast, ← mul_assoc]
    congr 2
    exact_mod_cast whole

/-- The final form is the one in which numbers are decoded. Above the least
exponent the mantissa was full before, and a carry that is shifted back leaves
exactly the least full mantissa. -/
theorem canonical_settle (least : -1074 ≤ exponent) (carried : mantissa ≤ 2 ^ 53)
    (full : -1074 < exponent → 2 ^ 52 ≤ mantissa) : Canonical (settle sign mantissa exponent) := by
  have short := mantissa_shortened_lt mantissa exponent .exact
  rw [mantissa_shortened] at short
  have few := surplus_le least carried
  unfold settle
  by_cases zero : mantissa / 2 ^ surplus mantissa exponent = 0
  · rw [dif_pos zero]
    trivial
  · rw [dif_neg zero]
    refine ⟨short, by omega, ?_⟩
    rcases Nat.eq_zero_or_pos (surplus mantissa exponent) with none | some
    · rw [none, Nat.pow_zero, Nat.div_one]
      omega
    · have once : surplus mantissa exponent = 1 := by omega
      rw [once]
      omega

/-- Rounding a mantissa with enough digits yields the nearest number. Enough
means that the exponent does not lie above the last place, so that there is
something to be shortened. -/
theorem rounds_roundWithAccuracy (positive : 0 < x)
    (given : ExtendedMantissa.ofMantissaAndAccuracy mantissa accuracy = extended x)
    (ready : exponent ≤ lastPlace (x * 2 ^ exponent)) :
    Rounds (roundWithAccuracy Format.binary64 sign mantissa exponent accuracy)
      (signed sign (x * 2 ^ exponent)) := by
  have floor : ⌊x⌋₊ = mantissa := by
    rw [← mantissa_ofMantissaAndAccuracy mantissa accuracy, given, extended]
  have place := exponent_add_surplus positive floor ready
  have nonzero : 0 < x * 2 ^ exponent := mul_pos positive (two_zpow_pos _)
  have least : -1074 ≤ lastPlace (x * 2 ^ exponent) := le_max_right _ _
  have carried := halfEven_le nonzero
  have bounded := isFinite_roundWithAccuracy sign mantissa exponent accuracy
  rw [roundWithAccuracy_eq_settle, shortened_eq_extended positive given place,
    roundedMantissa_extended, place] at bounded ⊢
  refine ⟨bounded, canonical_settle sign least carried (le_halfEven nonzero), ?_⟩
  rw [decodedValue_settle sign least carried, nearest_signed, nearest_of_nonneg nonzero.le,
    nearestMagnitude]

/-- Lengthening a mantissa lowers its exponent, and the number is the same. -/
theorem shiftLeft_mul_two_zpow (mantissa count : ℕ) (exponent : ℤ) :
    ((mantissa <<< count : ℕ) : ℚ) * 2 ^ (exponent - count) = mantissa * 2 ^ exponent := by
  rw [Nat.shiftLeft_eq, sub_eq_neg_add, two_zpow_add, zpow_neg, zpow_natCast]
  push_cast
  field_simp

/-- Rounding an exact mantissa, which is lengthened where it is too short. By
then it has enough digits, and it still stands for the same number. -/
theorem rounds_round (positive : 0 < mantissa) :
    Rounds (UnpackedFloat.round Format.binary64 sign mantissa exponent)
      (signed sign (mantissa * 2 ^ exponent)) := by
  have digits := log_mul_two_zpow (Nat.floor_natCast (R := ℚ) mantissa) positive exponent
  let count := (exponent - lastPlace (mantissa * 2 ^ exponent)).toNat
  have lengthened : UnpackedFloat.round Format.binary64 sign mantissa exponent =
      roundWithAccuracy Format.binary64 sign (mantissa <<< count) (exponent - count) .exact := by
    unfold UnpackedFloat.round decreaseExponent
    dsimp only
    rw [targetExponent_eq, totalExponent]
    have place : max ((mantissa.log2 : ℤ) + 1 + exponent - 53) (-1074) =
        lastPlace (mantissa * 2 ^ exponent) := by
      unfold lastPlace
      omega
    rw [place]
  have nonzero : 0 < mantissa <<< count := by
    rw [Nat.shiftLeft_eq]
    exact Nat.mul_pos positive (Nat.two_pow_pos count)
  have same := shiftLeft_mul_two_zpow mantissa count exponent
  have ready : exponent - count ≤
      lastPlace (((mantissa <<< count : ℕ) : ℚ) * 2 ^ (exponent - count : ℤ)) := by
    rw [same]
    omega
  rw [lengthened, ← same]
  exact rounds_roundWithAccuracy sign (Nat.cast_pos.mpr nonzero) (extended_natCast _) ready

/-- Zero is rounded to a zero of either sign. -/
theorem rounds_zero (sign : Sign) : Rounds (.zero sign) 0 where
  bounded := rfl
  canonical := trivial
  value := by rw [decodedValue_zero, nearest_of_nonneg le_rfl, nearestMagnitude_zero]

/-- Rounding a whole number of units, of either sign. Its magnitude is rounded,
and the sign is put back; zero takes its sign from outside. -/
theorem rounds_normalize (number : ℤ) (exponent : ℤ) :
    Rounds (UnpackedFloat.normalize Format.binary64 number exponent sign)
      (number * 2 ^ exponent) := by
  unfold UnpackedFloat.normalize
  cases compared : compare number 0 with
  | lt =>
    have below := Int.compare_eq_lt.mp compared
    have opposite : ((-number).toNat : ℚ) = -number := by
      exact_mod_cast Int.toNat_of_nonneg (by omega : 0 ≤ -number)
    have round :
        Rounds (UnpackedFloat.round Format.binary64 .negative (-number).toNat exponent) _ :=
      rounds_round .negative (by omega)
    rw [opposite, signed, neg_mul, neg_neg] at round
    exact round
  | eq =>
    rw [Int.compare_eq_eq.mp compared, Int.cast_zero, zero_mul]
    exact rounds_zero sign
  | gt =>
    have above := Int.compare_eq_gt.mp compared
    have itself : (number.toNat : ℚ) = number := by
      exact_mod_cast Int.toNat_of_nonneg (by omega : 0 ≤ number)
    have round : Rounds (UnpackedFloat.round Format.binary64 .positive number.toNat exponent) _ :=
      rounds_round .positive (by omega)
    rw [itself, signed] at round
    exact round

end Rounding

section Operations

variable {left right : UnpackedFloat}

/-- A number in its form is its own nearest. The form says that it has at most
53 digits and none below the lowest place. -/
theorem Canonical.rounds {number : UnpackedFloat} (canonical : Canonical number)
    (bounded : number.isFinite = true) : Rounds number (decodedValue number) := by
  refine ⟨bounded, canonical, ?_⟩
  cases number with
  | infinity sign => exact absurd bounded Bool.false_ne_true
  | notANumber => exact absurd bounded Bool.false_ne_true
  | zero sign => exact (rounds_zero sign).value
  | finite sign mantissa exponent positive =>
    have nonneg : (0 : ℚ) ≤ mantissa * 2 ^ exponent :=
      mul_nonneg (Nat.cast_nonneg _) (two_zpow_pos _).le
    rw [decodedValue_finite, nearest_signed, nearest_of_nonneg nonneg,
      nearestMagnitude_of_short canonical.1 canonical.2.1]

/-- Mantissas are brought to a common exponent without loss: the shift to the
left makes up for the lower exponent. -/
theorem aligned_cast (sign : Sign) (mantissa : ℕ) {exponent common : ℤ}
    (below : common ≤ exponent) :
    ((sign.apply (mantissa <<< (exponent - common).toNat : ℕ) : ℤ) : ℚ) * 2 ^ common =
      signed sign (mantissa * 2 ^ exponent) := by
  have shifted := shiftLeft_mul_two_zpow mantissa (exponent - common).toNat exponent
  rw [show exponent - ((exponent - common).toNat : ℤ) = common by omega] at shifted
  rw [apply_cast, Int.cast_natCast, signed_mul_right, shifted]

/-- The sum of finite numbers is the exact sum, rounded once. Both are brought
to the lesser exponent, where their mantissas are added as whole numbers. -/
theorem rounds_add (first : Canonical left) (second : Canonical right)
    (bounded : left.isFinite = true) (alsoBounded : right.isFinite = true) :
    Rounds (add Format.binary64 left right) (decodedValue left + decodedValue right) := by
  cases left with
  | infinity sign => exact absurd bounded Bool.false_ne_true
  | notANumber => exact absurd bounded Bool.false_ne_true
  | zero sign =>
    rw [decodedValue_zero, zero_add]
    cases right with
    | infinity other => exact absurd alsoBounded Bool.false_ne_true
    | notANumber => exact absurd alsoBounded Bool.false_ne_true
    | zero other => cases sign <;> cases other <;> exact rounds_zero _
    | finite other mantissa exponent positive => exact second.rounds alsoBounded
  | finite sign mantissa exponent positive =>
    cases right with
    | infinity other => exact absurd alsoBounded Bool.false_ne_true
    | notANumber => exact absurd alsoBounded Bool.false_ne_true
    | zero other =>
      rw [decodedValue_zero, add_zero]
      exact first.rounds bounded
    | finite other mantissa' exponent' positive' =>
      have sum := rounds_normalize .positive
        (sign.apply (mantissa <<< (exponent - min exponent exponent').toNat : ℕ) +
          other.apply (mantissa' <<< (exponent' - min exponent exponent').toNat : ℕ))
        (min exponent exponent')
      rw [Int.cast_add, add_mul, aligned_cast sign mantissa (min_le_left _ _),
        aligned_cast other mantissa' (min_le_right _ _)] at sum
      exact sum

/-- The opposite of a decoded number is worth the opposite, infinities
included. -/
theorem decodedValue_neg (number : UnpackedFloat) :
    decodedValue number.neg = -decodedValue number := by
  cases number with
  | infinity sign => exact signed_neg sign limit
  | notANumber => exact neg_zero.symm
  | zero sign => exact neg_zero.symm
  | finite sign mantissa exponent positive => exact signed_neg sign _

/-- A difference is the sum with the opposite number, case by case. So what is
known of sums need not be proved again. -/
theorem difference_eq_sum (format : Format) (left right : UnpackedFloat) :
    sub format left right = add format left right.neg := by
  cases left with
  | notANumber => cases right <;> rfl
  | infinity sign => cases right <;> rfl
  | zero sign => cases right <;> rfl
  | finite sign mantissa exponent positive =>
    cases right with
    | finite other mantissa' exponent' positive' =>
      have opposite : ∀ number : ℤ, -other.apply number = (-other).apply number := by
        intro number
        cases other
        · exact neg_neg number
        · rfl
      dsimp only [sub, add, UnpackedFloat.neg]
      simp only [Int.sub_eq_add_neg, opposite]
    | _ => rfl

/-- The difference of finite numbers is the exact difference, rounded once,
since it is a sum. -/
theorem rounds_sub (first : Canonical left) (second : Canonical right)
    (bounded : left.isFinite = true) (alsoBounded : right.isFinite = true) :
    Rounds (sub Format.binary64 left right) (decodedValue left - decodedValue right) := by
  have opposite : Canonical right.neg := by cases right <;> exact second
  have finite : right.neg.isFinite = true := by cases right <;> exact alsoBounded
  rw [difference_eq_sum, sub_eq_add_neg, ← decodedValue_neg]
  exact rounds_add first opposite bounded finite

/-- The product of finite numbers is the exact product, rounded once. Two
factors together have enough digits, unless both are at the least exponent, and
then the lowest place is the last one anyway. -/
theorem rounds_mul (first : Canonical left) (second : Canonical right)
    (bounded : left.isFinite = true) (alsoBounded : right.isFinite = true) :
    Rounds (mul Format.binary64 left right) (decodedValue left * decodedValue right) := by
  cases left with
  | infinity sign => exact absurd bounded Bool.false_ne_true
  | notANumber => exact absurd bounded Bool.false_ne_true
  | zero sign =>
    rw [decodedValue_zero, zero_mul]
    cases right with
    | infinity other => exact absurd alsoBounded Bool.false_ne_true
    | notANumber => exact absurd alsoBounded Bool.false_ne_true
    | zero other => exact rounds_zero _
    | finite other mantissa exponent positive => exact rounds_zero _
  | finite sign mantissa exponent positive =>
    cases right with
    | infinity other => exact absurd alsoBounded Bool.false_ne_true
    | notANumber => exact absurd alsoBounded Bool.false_ne_true
    | zero other =>
      rw [decodedValue_zero, mul_zero]
      exact rounds_zero _
    | finite other mantissa' exponent' positive' =>
      have nonzero : 0 < mantissa * mantissa' := Nat.mul_pos positive positive'
      have exact : decodedValue (.finite sign mantissa exponent positive) *
          decodedValue (.finite other mantissa' exponent' positive') =
            signed (sign * other) ((mantissa * mantissa' : ℕ) * 2 ^ (exponent + exponent')) := by
        rw [decodedValue_finite, decodedValue_finite, ← signed_mul, two_zpow_add, Nat.cast_mul,
          mul_mul_mul_comm]
      have digits := log_mul_two_zpow (Nat.floor_natCast (R := ℚ) (mantissa * mantissa')) nonzero
        (exponent + exponent')
      have long : 52 ≤ (mantissa * mantissa').log2 ∨ exponent = -1074 ∧ exponent' = -1074 := by
        rcases first.2.2 with full | least
        · left
          exact (Nat.le_log2 nonzero.ne').mpr (full.trans (Nat.le_mul_of_pos_right _ positive'))
        · rcases second.2.2 with full | alsoLeast
          · left
            exact (Nat.le_log2 nonzero.ne').mpr (full.trans (Nat.le_mul_of_pos_left _ positive))
          · exact .inr ⟨least, alsoLeast⟩
      rw [exact]
      refine rounds_roundWithAccuracy (sign * other) (Nat.cast_pos.mpr nonzero)
        (extended_natCast _) ?_
      unfold lastPlace
      omega

/-- The leading digit of a quotient is at most one place below where those of
its operands put it. The division aims at this place, and so never has too few
digits. -/
theorem le_log_quotient {mantissa mantissa' : ℕ} (positive : 0 < mantissa)
    (positive' : 0 < mantissa') (exponent : ℤ) :
    (mantissa.log2 : ℤ) - mantissa'.log2 - 1 + exponent ≤
      Int.log 2 ((mantissa : ℚ) / mantissa' * 2 ^ exponent) := by
  have low : (2 : ℚ) ^ (mantissa.log2 : ℤ) ≤ mantissa := by
    rw [zpow_natCast]
    exact_mod_cast Nat.log2_self_le positive.ne'
  have high : (mantissa' : ℚ) ≤ 2 ^ (mantissa'.log2 + 1 : ℤ) := by
    exact_mod_cast (Nat.lt_log2_self (n := mantissa')).le
  have nonzero : (0 : ℚ) < mantissa' := Nat.cast_pos.mpr positive'
  have quotient : (0 : ℚ) < mantissa / mantissa' * 2 ^ exponent :=
    mul_pos (div_pos (Nat.cast_pos.mpr positive) nonzero) (two_zpow_pos _)
  apply (Int.zpow_le_iff_le_log (R := ℚ) one_lt_two quotient).mp
  push_cast
  rw [two_zpow_add, sub_sub, zpow_sub₀ two_ne_zero]
  apply mul_le_mul_of_nonneg_right _ (two_zpow_pos _).le
  exact div_le_div₀ (Nat.cast_nonneg _) low nonzero high

/-- The quotient of finite numbers by one that is not zero is the exact
quotient, rounded once. The dividend is lengthened until the whole quotient has
enough digits, and the remainder tells what lies behind them. -/
theorem rounds_div (bounded : left.isFinite = true) (alsoBounded : right.isFinite = true)
    (nonzero : decodedValue right ≠ 0) :
    Rounds (div Format.binary64 left right) (decodedValue left / decodedValue right) := by
  cases right with
  | infinity other => exact absurd alsoBounded Bool.false_ne_true
  | notANumber => exact absurd alsoBounded Bool.false_ne_true
  | zero other => exact absurd rfl nonzero
  | finite other mantissa' exponent' positive' =>
    cases left with
    | infinity sign => exact absurd bounded Bool.false_ne_true
    | notANumber => exact absurd bounded Bool.false_ne_true
    | zero sign =>
      rw [decodedValue_zero, zero_div]
      exact rounds_zero _
    | finite sign mantissa exponent positive =>
      let target := min (exponent - exponent')
        (max (totalExponent mantissa exponent - totalExponent mantissa' exponent' - 53) (-1074))
      let count := (exponent - exponent' - target).toNat
      have least : exponent - exponent' - count = target := by omega
      have shifted : (0 : ℚ) < ((mantissa <<< count : ℕ) : ℚ) / mantissa' := by
        rw [Nat.shiftLeft_eq]
        positivity
      have same : ((mantissa <<< count : ℕ) : ℚ) / mantissa' * 2 ^ target =
          mantissa / mantissa' * 2 ^ (exponent - exponent') := by
        rw [← least, div_mul_eq_mul_div, shiftLeft_mul_two_zpow, div_mul_eq_mul_div]
      have exact : decodedValue (.finite sign mantissa exponent positive) /
          decodedValue (.finite other mantissa' exponent' positive') =
            signed (sign / other) (((mantissa <<< count : ℕ) : ℚ) / mantissa' * 2 ^ target) := by
        rw [decodedValue_finite, decodedValue_finite, ← signed_div, same, zpow_sub₀ two_ne_zero,
          mul_div_mul_comm]
      have digits := le_log_quotient positive positive' (exponent - exponent')
      have ready :
          target ≤ lastPlace (((mantissa <<< count : ℕ) : ℚ) / mantissa' * 2 ^ target) := by
        rw [same]
        unfold lastPlace
        simp only [target, totalExponent]
        omega
      rw [exact]
      exact rounds_roundWithAccuracy (sign / other) shifted
        (extended_fraction (mantissa <<< count) positive') ready

end Operations

end Telemetry.Number
