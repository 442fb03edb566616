import Mathlib.Tactic.Ring
import Telemetry.Proofs.FloatOrder
import Telemetry.Span

/-!
# Results that do not overflow

Arithmetic on readings decodes its operands, computes with whole mantissas,
rounds the result to 53 bits and encodes it. The result is infinite only if its
exponent is too large after rounding, so bounds on exponents are enough to show
that it is finite. For sums and products loose bounds will do. A quotient by a
number from one on keeps the bound of its dividend: it does not lie above the
dividend, so rounding cannot carry it past the dividend's exponent.

Two facts about readings follow. A span is a finite number of seconds, and
rounding a finite number to at most 15 decimals leaves it finite.
-/
namespace Telemetry.Number

open Float.Model (UnpackedFloat Format totalExponent)
open Float.Model.UnpackedFloat

/-- A zero, or a number with a mantissa of 53 bits and an exponent up to a
bound. -/
def InRange (bound : Int) : UnpackedFloat → Prop
  | .zero _ => True
  | .finite _ mantissa exponent _ => mantissa < 2 ^ 53 ∧ exponent ≤ bound
  | .infinity _ | .notANumber => False

instance (bound : Int) : DecidablePred (InRange bound)
  | .zero _ => .isTrue trivial
  | .finite _ mantissa exponent _ =>
    inferInstanceAs (Decidable (mantissa < 2 ^ 53 ∧ exponent ≤ bound))
  | .infinity _ | .notANumber => .isFalse id

/-- A bound on exponents may be relaxed. The mantissa is not concerned. -/
theorem InRange.mono {bound wider : Int} (within : bound ≤ wider) {number : UnpackedFloat}
    (inRange : InRange bound number) : InRange wider number := by
  cases number with
  | finite sign mantissa exponent positive => exact ⟨inRange.1, inRange.2.trans within⟩
  | _ => exact inRange

/-- What has a bounded exponent is finite: the definition leaves out infinities
and NaN. -/
theorem isFinite_of_inRange {bound : Int} {number : UnpackedFloat}
    (inRange : InRange bound number) : number.isFinite = true := by
  cases number with
  | zero sign => rfl
  | finite sign mantissa exponent positive => rfl
  | infinity sign => exact inRange.elim
  | notANumber => exact inRange.elim

section Encoding

/-- The mantissa field with the leading one in front: the one is worth `2 ^ 52`
and overlaps with no bit of the field. -/
theorem toNat_leading_one (mantissa : BitVec 52) :
    (1#1 ++ mantissa).toNat = 2 ^ 52 + mantissa.toNat := by
  rw [BitVec.toNat_append, ← Nat.shiftLeft_add_eq_or_of_lt mantissa.isLt]
  rfl

/-- A number is finite exactly when its exponent field is not full. Two of the
five ways of decoding have a full field, and these two are not finite. -/
theorem isFinite_unpack_iff {bits : BitVec Format.binary64.numBits} :
    (unpack Format.binary64 bits).isFinite = true ↔ (unpackExponent bits).toNat ≠ 2047 := by
  have decoded := decoding_unpack Format.binary64 bits
  generalize unpack Format.binary64 bits = number at decoded ⊢
  cases decoded with
  | infinity full | notANumber full =>
    exact iff_of_false Bool.false_ne_true (absurd (congrArg BitVec.toNat full))
  | zero short | subnormal short | normal short =>
    exact iff_of_true rfl fun full => short (BitVec.eq_of_toNat_eq full)

/-- What a finite number is decoded to. Only at the least exponent the mantissa
may be short of its leading one, because the field zero stands for the same
exponent as the field one. -/
theorem unpack_finite {bits : BitVec Format.binary64.numBits} {sign : Sign} {mantissa : Nat}
    {exponent : Int} {positive : 0 < mantissa}
    (decoded : unpack Format.binary64 bits = .finite sign mantissa exponent positive) :
    mantissa < 2 ^ 53 ∧ exponent = max 1 ((unpackExponent bits).toNat : Int) - 1075 ∧
      (2 ^ 52 ≤ mantissa ∨ exponent = -1074) := by
  have short : (unpackMantissa bits).toNat < 2 ^ 52 := (unpackMantissa bits).isLt
  have bias : Format.binary64.exponentBias = 1023 := rfl
  have width : Format.binary64.mantissaBitsWithoutImplicit = 52 := rfl
  have shape := decoding_unpack Format.binary64 bits
  rw [decoded] at shape
  cases shape with
  | subnormal _ least =>
    have zero : (unpackExponent bits).toNat = 0 := congrArg BitVec.toNat least
    omega
  | normal _ raised =>
    have nonzero : (unpackExponent bits).toNat ≠ 0 := fun zero =>
      raised (BitVec.eq_of_toNat_eq zero)
    have leading := toNat_leading_one (unpackMantissa bits)
    omega

/-- An exponent field that is not too large keeps a number in range. The
exponent is the field less a constant, and a field below the full one is no
infinity. -/
theorem inRange_unpack {bits : BitVec Format.binary64.numBits} {bound : Int}
    (least : -1074 ≤ bound) (most : bound ≤ 971)
    (field : ((unpackExponent bits).toNat : Int) ≤ bound + 1075) :
    InRange bound (unpack Format.binary64 bits) := by
  have finite := isFinite_unpack_iff.mpr (by omega : (unpackExponent bits).toNat ≠ 2047)
  cases decoded : unpack Format.binary64 bits with
  | zero sign => trivial
  | finite sign mantissa exponent positive =>
    obtain ⟨short, same, -⟩ := unpack_finite decoded
    exact ⟨short, by omega⟩
  | infinity sign => rw [decoded] at finite; cases finite
  | notANumber => rw [decoded] at finite; cases finite

/-- Every finite number has the greatest exponent that there is as a bound,
since its field is at most one short of full. -/
theorem inRange_of_isFinite {x : Float} (finite : x.isFinite = true) :
    InRange 971 x.toModel.unpack := by
  have notFull := isFinite_unpack_iff.mp finite
  have field : (@unpackExponent Format.binary64 x.toModel.toBits.toBitVec).toNat < 2048 :=
    BitVec.isLt _
  exact inRange_unpack (by omega) (by omega) (by omega)

/-- Encoding a number in range keeps it there. Of the six branches of the
encoder, the ones for NaN and the infinities and for overflow are excluded by
the range; in the others the field is bounded by the exponent. -/
theorem inRange_unpack_pack {bound : Int} (least : -1074 ≤ bound) (most : bound ≤ 971)
    {number : UnpackedFloat} (inRange : InRange bound number) :
    InRange bound (unpack Format.binary64 (pack Format.binary64 number)) := by
  refine inRange_unpack least most ?_
  have bias : Format.binary64.exponentBias = 1023 := rfl
  have width : Format.binary64.mantissaBitsWithoutImplicit = 52 := rfl
  have capacity : 2 ^ Format.binary64.exponentBits = 2048 := rfl
  fun_cases pack Format.binary64 number with
  | case1 => exact inRange.elim
  | case2 sign => exact inRange.elim
  | case3 sign => simp [packedZero]; omega
  | case4 sign mantissa exponent positive biased overflow =>
    obtain ⟨-, small⟩ := inRange
    omega
  | case5 sign mantissa exponent positive bits biased fits normal =>
    obtain ⟨-, small⟩ := inRange
    simp only [unpackExponent_packComponents, BitVec.toNat_ofNat]
    omega
  | case6 sign mantissa exponent positive bits biased fits subnormal =>
    simp; omega

end Encoding

section Rounding

/-- Shifting an extended mantissa divides it, whatever happens to the bits that
are kept behind it. -/
theorem mantissa_shiftRight (extended : ExtendedMantissa) (count : Nat) :
    (extended >>> count).mantissa = extended.mantissa / 2 ^ count := by
  induction count with
  | zero => exact (Nat.div_one _).symm
  | succ count inductionHypothesis =>
    change (extended >>> count).mantissa / 2 = _
    rw [inductionHypothesis, Nat.div_div_eq_div_mul, Nat.pow_succ]

/-- A mantissa is rounded up by at most one, and only if the bit behind it is
set. Without that bit less than a half is lost. -/
theorem roundedMantissa_le (extended : ExtendedMantissa) :
    extended.roundedMantissa ≤ extended.mantissa + extended.roundBit.toNat := by
  obtain ⟨mantissa, round, sticky⟩ := extended
  cases round <;> cases sticky <;>
    simp [ExtendedMantissa.roundedMantissa, ExtendedMantissa.accuracy, Accuracy.roundToNearestEven]
  omega

/-- The accuracy of a mantissa is kept in the bits behind it and does not change
it. -/
theorem mantissa_ofMantissaAndAccuracy (mantissa : Nat) (accuracy : Accuracy) :
    (ExtendedMantissa.ofMantissaAndAccuracy mantissa accuracy).mantissa = mantissa := by
  rcases accuracy with _ | ⟨_ | _ | _⟩ <;> rfl

/-- The exponent that rounding aims at: 53 places below the leading bit, but not
below the lowest place. -/
theorem targetExponent_eq (total : Int) :
    Format.binary64.targetExponent total = max (total - 53) (-1074) := rfl

/-- A number below a power of two has no more bits than that power says. Zero,
which has no leading bit, counts as having the first one. -/
theorem log2_le_of_lt {number bits : Nat} (small : number < 2 ^ (bits + 1)) :
    number.log2 ≤ bits := by
  rcases Nat.eq_zero_or_pos number with rfl | positive
  · exact Nat.zero_le bits
  · exact Nat.le_of_lt_succ ((Nat.log2_lt positive.ne').mpr small)

/-- A shift adds at most as many bits as it shifts by. -/
theorem log2_shiftLeft_le (number count : Nat) : (number <<< count).log2 ≤ number.log2 + count := by
  refine log2_le_of_lt ?_
  rw [Nat.shiftLeft_eq, Nat.add_right_comm, Nat.pow_add]
  exact Nat.mul_lt_mul_of_pos_right Nat.lt_log2_self (Nat.two_pow_pos count)

/-- By how many bits a mantissa is shortened. -/
def surplus (mantissa : Nat) (exponent : Int) : Nat :=
  (max (mantissa.log2 + 1 + exponent - 53) (-1074) - exponent).toNat

/-- A mantissa without these bits. -/
def shortened (mantissa : Nat) (exponent : Int) (accuracy : Accuracy) : ExtendedMantissa :=
  ExtendedMantissa.ofMantissaAndAccuracy mantissa accuracy >>> surplus mantissa exponent

/-- Shortening a mantissa drops the surplus bits and raises the exponent by as
many, so that the value is kept up to rounding. -/
theorem shiftToTargetExponent_eq (mantissa : Nat) (exponent : Int) (accuracy : Accuracy) :
    shiftToTargetExponent Format.binary64 mantissa exponent accuracy =
      (shortened mantissa exponent accuracy, exponent + surplus mantissa exponent) := rfl

/-- What is left of a mantissa after shortening is a quotient by a power of
two. -/
theorem mantissa_shortened (mantissa : Nat) (exponent : Int) (accuracy : Accuracy) :
    (shortened mantissa exponent accuracy).mantissa =
      mantissa / 2 ^ surplus mantissa exponent := by
  rw [shortened, mantissa_shiftRight, mantissa_ofMantissaAndAccuracy]

/-- A shortened mantissa has at most 53 bits: the surplus is counted from its
leading bit. -/
theorem mantissa_shortened_lt (mantissa : Nat) (exponent : Int) (accuracy : Accuracy) :
    (shortened mantissa exponent accuracy).mantissa < 2 ^ 53 := by
  rw [mantissa_shortened, Nat.div_lt_iff_lt_mul (Nat.two_pow_pos _), ← Nat.pow_add]
  refine Nat.lt_log2_self.trans_le (Nat.pow_le_pow_right (by decide) ?_)
  unfold surplus
  omega

/-- Rounding carries a mantissa to the next power of two at most: it had 53 bits
and grows by one at most. -/
theorem roundedMantissa_shortened_le (mantissa : Nat) (exponent : Int) (accuracy : Accuracy) :
    (shortened mantissa exponent accuracy).roundedMantissa ≤ 2 ^ 53 := by
  have short := mantissa_shortened_lt mantissa exponent accuracy
  have up := roundedMantissa_le (shortened mantissa exponent accuracy)
  have bit := (shortened mantissa exponent accuracy).roundBit.toNat_le
  omega

/-- What is short already loses no bits, and a carry loses one. So rounding
shortens twice and not more often. -/
theorem surplus_le {mantissa : Nat} {exponent : Int} (least : -1074 ≤ exponent)
    (carried : mantissa ≤ 2 ^ 53) : surplus mantissa exponent ≤ mantissa / 2 ^ 53 := by
  have bits : mantissa.log2 ≤ 52 + mantissa / 2 ^ 53 := by
    rcases carried.lt_or_eq with short | rfl
    · have below : mantissa.log2 ≤ 52 := log2_le_of_lt short
      omega
    · decide
  unfold surplus
  omega

variable {sign : Sign} {mantissa : Nat} {exponent bound : Int} {accuracy : Accuracy}

/-- A rounded number is in range if its exponent is, a carry included. If the
exponent is at its bound, the mantissa must not be carried; below the bound it
may. -/
theorem inRange_roundWithAccuracy
    (carry : exponent + surplus mantissa exponent < bound ∨
      exponent + surplus mantissa exponent = bound ∧
        (shortened mantissa exponent accuracy).roundedMantissa < 2 ^ 53) :
    InRange bound (roundWithAccuracy Format.binary64 sign mantissa exponent accuracy) := by
  rw [roundWithAccuracy_eq, shiftToTargetExponent_eq, shiftToTargetExponent_eq]
  dsimp only
  have least : -1074 ≤ exponent + surplus mantissa exponent := by
    unfold surplus
    omega
  have carried := roundedMantissa_shortened_le mantissa exponent accuracy
  have again := surplus_le least carried
  have short := mantissa_shortened_lt (shortened mantissa exponent accuracy).roundedMantissa
    (exponent + surplus mantissa exponent) .exact
  generalize (shortened _ _ Accuracy.exact).mantissa = rounded at short ⊢
  unfold ofMantissa
  by_cases zero : rounded = 0
  · rw [dif_pos zero]
    trivial
  · rw [dif_neg zero]
    exact ⟨short, by omega⟩

/-- A number is rounded into range if its leading bit is low enough, since then
one place is left for a carry. -/
theorem inRange_roundWithAccuracy_of_total (least : -1074 < bound) (low : exponent < bound)
    (total : mantissa.log2 + exponent < bound + 52) :
    InRange bound (roundWithAccuracy Format.binary64 sign mantissa exponent accuracy) := by
  refine inRange_roundWithAccuracy (.inl ?_)
  unfold surplus
  omega

/-- The same where the exponent may be lowered first. Lowering it lengthens the
mantissa by as many bits, so the place of the leading bit is the same. -/
theorem inRange_round (least : -1074 < bound) (total : mantissa.log2 + exponent < bound + 52) :
    InRange bound (UnpackedFloat.round Format.binary64 sign mantissa exponent) := by
  unfold UnpackedFloat.round decreaseExponent
  dsimp only
  rw [targetExponent_eq, totalExponent]
  refine inRange_roundWithAccuracy_of_total least ?_ ?_
  · omega
  · have bits := log2_shiftLeft_le mantissa
      (exponent - max (mantissa.log2 + 1 + exponent - 53) (-1074)).toNat
    omega

/-- A signed mantissa is rounded into range like its magnitude. Its sign has no
part in this, and zero is always in range. -/
theorem inRange_normalize {signed : Int} {zeroSign : Sign} (least : -1074 < bound)
    (total : signed.natAbs.log2 + exponent < bound + 52) :
    InRange bound (UnpackedFloat.normalize Format.binary64 signed exponent zeroSign) := by
  unfold UnpackedFloat.normalize
  cases compared : compare signed 0 with
  | lt =>
    have below := Int.compare_eq_lt.mp compared
    have same : (-signed).toNat = signed.natAbs := by omega
    exact same ▸ inRange_round least total
  | eq => trivial
  | gt =>
    have above := Int.compare_eq_gt.mp compared
    have same : signed.toNat = signed.natAbs := by omega
    exact same ▸ inRange_round least total

end Rounding

section Operations

variable {bound : Int}

/-- A mantissa of 53 bits that is shifted has as many bits more as it was
shifted by. -/
theorem shiftLeft_lt {mantissa count most : Nat} (short : mantissa < 2 ^ 53)
    (within : count ≤ most) : mantissa <<< count < 2 ^ (53 + most) := by
  rw [Nat.shiftLeft_eq, Nat.pow_add]
  exact Nat.mul_lt_mul_of_lt_of_le short (Nat.pow_le_pow_right (by decide) within)
    (Nat.two_pow_pos most)

/-- A sign does not change a magnitude. -/
theorem natAbs_apply (sign : Sign) (number : Nat) :
    (sign.apply (number : Int)).natAbs = number := by
  cases sign <;> simp [Sign.apply]

/-- Mantissas that are brought to a common exponent add up to one bit more than
the longer of them, whatever their signs. -/
theorem log2_alignedSum_le (sign other : Sign) {mantissa mantissa' count count' most : Nat}
    (short : mantissa < 2 ^ 53) (short' : mantissa' < 2 ^ 53) (within : count ≤ most)
    (within' : count' ≤ most) :
    (sign.apply (mantissa <<< count : Nat) +
      other.apply (mantissa' <<< count' : Nat)).natAbs.log2 ≤ 53 + most := by
  refine log2_le_of_lt ((Int.natAbs_add_le ..).trans_lt ?_)
  have first := shiftLeft_lt short within
  have second := shiftLeft_lt short' within'
  rw [natAbs_apply, natAbs_apply, Nat.pow_succ]
  omega

/-- A sum is at most two bits longer than its summands, one for the addition and
one for a carry. The bound is loose, but the sums that are bounded here are far
from overflow. -/
theorem inRange_decodedSum {left right : UnpackedFloat} (least : -1076 < bound)
    (first : InRange bound left) (second : InRange bound right) :
    InRange (bound + 2) (add Format.binary64 left right) := by
  have wider : bound ≤ bound + 2 := by omega
  cases left with
  | infinity sign => exact first.elim
  | notANumber => exact first.elim
  | zero sign =>
    cases right with
    | infinity other => exact second.elim
    | notANumber => exact second.elim
    | zero other => cases sign <;> cases other <;> trivial
    | finite other mantissa exponent positive => exact second.mono wider
  | finite sign mantissa exponent positive =>
    cases right with
    | infinity other => exact second.elim
    | notANumber => exact second.elim
    | zero other => exact first.mono wider
    | finite other mantissa' exponent' positive' =>
      obtain ⟨short, small⟩ := first
      obtain ⟨short', small'⟩ := second
      have within : (exponent - min exponent exponent').toNat ≤
          (bound - min exponent exponent').toNat := by omega
      have within' : (exponent' - min exponent exponent').toNat ≤
          (bound - min exponent exponent').toNat := by omega
      have bits := log2_alignedSum_le sign other short short' within within'
      exact inRange_normalize (by omega) (by omega)

/-- A product has as many bits as its factors together, and a carry may add one.
If either factor is zero the product is zero. -/
theorem inRange_decodedProduct {left right : UnpackedFloat} {bound' : Int}
    (least : -1074 < bound + bound' + 54) (first : InRange bound left)
    (second : InRange bound' right) :
    InRange (bound + bound' + 54) (mul Format.binary64 left right) := by
  cases left with
  | infinity sign => exact first.elim
  | notANumber => exact first.elim
  | zero sign =>
    cases right with
    | infinity other => exact second.elim
    | notANumber => exact second.elim
    | _ => trivial
  | finite sign mantissa exponent positive =>
    cases right with
    | infinity other => exact second.elim
    | notANumber => exact second.elim
    | zero other => trivial
    | finite other mantissa' exponent' positive' =>
      obtain ⟨short, small⟩ := first
      obtain ⟨short', small'⟩ := second
      have product : mantissa * mantissa' < 2 ^ 53 * 2 ^ 53 := Nat.mul_lt_mul'' short short'
      rw [← Nat.pow_add] at product
      have bits := log2_le_of_lt product
      exact inRange_roundWithAccuracy_of_total least (by omega) (by omega)

/-- Where a quotient is rounded up, it lies at least halfway to the next
mantissa. Without surplus bits, the bit behind the mantissa is the comparison of
the remainder with half the divisor; with them, it is the last bit that was
shifted out. -/
theorem halfway_of_roundBit {dividend divisor count : Nat}
    (up : (ExtendedMantissa.ofMantissaAndAccuracy (dividend / divisor)
      (accuracyOfFraction (dividend % divisor) divisor) >>> count).roundBit = true) :
    (2 * (dividend / divisor / 2 ^ count) + 1) * (2 ^ count * divisor) ≤ 2 * dividend := by
  have whole := Nat.div_add_mod dividend divisor
  cases count with
  | zero =>
    have half : divisor ≤ 2 * (dividend % divisor) := by
      by_contra below
      have less : compare (2 * (dividend % divisor)) divisor = .lt :=
        Nat.compare_eq_lt.mpr (Nat.lt_of_not_le below)
      unfold accuracyOfFraction at up
      rw [less] at up
      split at up <;> cases up
    rw [Nat.pow_zero, Nat.div_one, Nat.one_mul, Nat.add_mul, Nat.one_mul, Nat.mul_assoc,
      Nat.mul_comm (dividend / divisor)]
    omega
  | succ count =>
    have odd : dividend / divisor / 2 ^ count % 2 ≠ 0 := by
      rw [← mantissa_ofMantissaAndAccuracy (dividend / divisor)
        (accuracyOfFraction (dividend % divisor) divisor), ← mantissa_shiftRight]
      exact bne_iff_ne.mp up
    have halved : 2 * (dividend / divisor / 2 ^ (count + 1)) + 1 =
        dividend / divisor / 2 ^ count := by
      rw [Nat.pow_succ, ← Nat.div_div_eq_div_mul]
      omega
    have below : dividend / divisor / 2 ^ count * 2 ^ count * divisor ≤ dividend :=
      calc dividend / divisor / 2 ^ count * 2 ^ count * divisor
          ≤ dividend / divisor * divisor := Nat.mul_le_mul_right _ (Nat.div_mul_le_self ..)
        _ ≤ dividend := Nat.div_mul_le_self ..
    calc (2 * (dividend / divisor / 2 ^ (count + 1)) + 1) * (2 ^ (count + 1) * divisor)
        = 2 * (dividend / divisor / 2 ^ count * 2 ^ count * divisor) := by rw [halved]; ring
      _ ≤ 2 * dividend := Nat.mul_le_mul_left 2 below

/-- A quotient that is rounded up lies at least halfway above its shortened
mantissa. It does not lie above the dividend, so a whole step up still fits
below the dividend's mantissa. -/
theorem mantissa_shortened_lt_of_roundBit {mantissa dividend divisor count : Nat} {target : Int}
    (scaled : dividend = mantissa * 2 ^ count) (full : 2 ^ 52 ≤ divisor)
    (fewer : count ≤ surplus (dividend / divisor) target + 52)
    (up : (shortened (dividend / divisor) target
      (accuracyOfFraction (dividend % divisor) divisor)).roundBit = true) :
    (shortened (dividend / divisor) target
      (accuracyOfFraction (dividend % divisor) divisor)).mantissa < mantissa := by
  have half := halfway_of_roundBit up
  rw [← mantissa_shortened _ _ (accuracyOfFraction (dividend % divisor) divisor)] at half
  generalize shortened (dividend / divisor) target
    (accuracyOfFraction (dividend % divisor) divisor) = extended at half ⊢
  generalize surplus (dividend / divisor) target = lost at half fewer
  have under : (2 * extended.mantissa + 1) * 2 ^ (lost + 52) ≤ 2 * mantissa * 2 ^ (lost + 52) :=
    calc (2 * extended.mantissa + 1) * 2 ^ (lost + 52)
        = (2 * extended.mantissa + 1) * (2 ^ lost * 2 ^ 52) := by rw [Nat.pow_add]
      _ ≤ (2 * extended.mantissa + 1) * (2 ^ lost * divisor) :=
          Nat.mul_le_mul_left _ (Nat.mul_le_mul_left _ full)
      _ ≤ 2 * dividend := half
      _ = 2 * mantissa * 2 ^ count := by rw [scaled, Nat.mul_assoc]
      _ ≤ 2 * mantissa * 2 ^ (lost + 52) :=
          Nat.mul_le_mul_left _ (Nat.pow_le_pow_right (by decide) fewer)
  have less := Nat.le_of_mul_le_mul_right under (Nat.two_pow_pos _)
  omega

/-- A quotient by a number from one on is rounded into the range of its
dividend: where it would need a carry to reach the highest exponent, it would
lie above the dividend. -/
theorem inRange_roundedQuotient {sign : Sign} {mantissa divisor : Nat}
    {start exponent target : Int} (short : mantissa < 2 ^ 53) (small : start ≤ bound)
    (full : 2 ^ 52 ≤ divisor) (large : -52 ≤ exponent) (least : -1074 ≤ bound)
    (below : target ≤ start - exponent) (low : target ≤ bound) :
    let dividend := mantissa <<< (start - exponent - target).toNat
    InRange bound (roundWithAccuracy Format.binary64 sign (dividend / divisor) target
      (accuracyOfFraction (dividend % divisor) divisor)) := by
  intro dividend
  obtain ⟨count, same⟩ := Int.eq_ofNat_of_zero_le (by omega : 0 ≤ start - exponent - target)
  have scaled : dividend = mantissa * 2 ^ count := by
    rw [← Nat.shiftLeft_eq]
    simp only [dividend, same, Int.toNat_natCast]
  have quotient : dividend / divisor < 2 ^ (count + 1) := by
    refine Nat.div_lt_of_lt_mul ?_
    calc dividend < 2 ^ 53 * 2 ^ count := by
          rw [scaled]
          exact Nat.mul_lt_mul_of_pos_right short (Nat.two_pow_pos count)
      _ = 2 ^ 52 * 2 ^ (count + 1) := by ring
      _ ≤ divisor * 2 ^ (count + 1) := Nat.mul_le_mul_right _ full
  have bits := log2_le_of_lt quotient
  have atMost : target + surplus (dividend / divisor) target ≤ bound := by
    unfold surplus
    omega
  refine inRange_roundWithAccuracy ?_
  rcases atMost.lt_or_eq with lower | highest
  · exact .inl lower
  · refine .inr ⟨highest, ?_⟩
    have kept := mantissa_shortened_lt (dividend / divisor) target
      (accuracyOfFraction (dividend % divisor) divisor)
    have rounded := roundedMantissa_le (shortened (dividend / divisor) target
      (accuracyOfFraction (dividend % divisor) divisor))
    cases up : (shortened (dividend / divisor) target
        (accuracyOfFraction (dividend % divisor) divisor)).roundBit with
    | false =>
      rw [up, Bool.toNat_false] at rounded
      omega
    | true =>
      rw [up, Bool.toNat_true] at rounded
      have fewer : count ≤ surplus (dividend / divisor) target + 52 := by omega
      have less := mantissa_shortened_lt_of_roundBit scaled full fewer up
      omega

/-- Dividing by a number from one on does not leave the range. The divisor is
given by what such a number is decoded to: a full mantissa and an exponent that
is not too low. -/
theorem inRange_decodedQuotient {left : UnpackedFloat} (least : -1074 ≤ bound)
    (inRange : InRange bound left) {sign : Sign} {divisor : Nat} {exponent : Int}
    {positive : 0 < divisor} (full : 2 ^ 52 ≤ divisor) (large : -52 ≤ exponent) :
    InRange bound (div Format.binary64 left (.finite sign divisor exponent positive)) := by
  cases left with
  | infinity sign => exact inRange.elim
  | notANumber => exact inRange.elim
  | zero sign => trivial
  | finite sign mantissa start nonzero =>
    obtain ⟨short, small⟩ := inRange
    have bits : mantissa.log2 ≤ 52 := log2_le_of_lt short
    have bits' : 52 ≤ divisor.log2 := (Nat.le_log2 positive.ne').mpr full
    refine inRange_roundedQuotient short small full large least ?_ ?_
    · exact min_le_left ..
    · rw [targetExponent_eq, totalExponent, totalExponent]
      omega

end Operations

section Readings

variable {x y : Float}

/-- A finite number from one on is decoded to a full mantissa. One itself has
the least mantissa with 53 bits, and a greater number has a greater exponent or
a greater mantissa. -/
theorem unpack_of_one_le (finite : y.isFinite = true) (large : 1 ≤ y) :
    ∃ mantissa exponent positive, y.toModel.unpack = .finite .positive mantissa exponent positive ∧
      2 ^ 52 ≤ mantissa ∧ -52 ≤ exponent := by
  have one : (1 : Float).isFinite = true := by decide
  rw [le_iff_rank (isNaN_of_isFinite one) (isNaN_of_isFinite finite)] at large
  have rankOne : rank (1 : Float).toModel.unpack = toLex (1, toLex (-52, 2 ^ 52)) := by decide
  rw [rankOne] at large
  change y.toModel.unpack.isFinite = true at finite
  cases decoded : y.toModel.unpack with
  | infinity sign => rw [decoded] at finite; cases finite
  | notANumber => rw [decoded] at finite; cases finite
  | zero sign =>
    rw [decoded] at large
    dsimp only [rank] at large
    simp [Prod.Lex.le_iff] at large
  | finite sign mantissa exponent positive =>
    rw [decoded] at large
    cases sign with
    | negative =>
      dsimp only [rank] at large
      simp [Prod.Lex.le_iff] at large
    | positive =>
      obtain ⟨-, -, full⟩ := unpack_finite decoded
      dsimp only [rank] at large
      simp only [Prod.Lex.le_iff, ofLex_toLex, lt_self_iff_false, false_or, true_and] at large
      refine ⟨mantissa, exponent, positive, rfl, ?_, ?_⟩ <;> omega

/-- A quotient of readings by one from one on keeps the bound of its dividend.
Encoding does not leave the range either, so this is about the readings
themselves. -/
theorem inRange_div {bound : Int} (least : -1074 ≤ bound) (most : bound ≤ 971)
    (dividend : InRange bound x.toModel.unpack) (divisor : y.isFinite = true) (large : 1 ≤ y) :
    InRange bound (x / y).toModel.unpack := by
  obtain ⟨mantissa, exponent, positive, decoded, full, high⟩ := unpack_of_one_le divisor large
  refine inRange_unpack_pack least most ?_
  rw [decoded]
  exact inRange_decodedQuotient least dividend full high

/-- A quotient by a number from one on does not overflow: every finite dividend
has a bound, and the quotient has the same. -/
theorem isFinite_div (dividend : x.isFinite = true) (divisor : y.isFinite = true)
    (large : 1 ≤ y) : (x / y).isFinite = true :=
  isFinite_of_inRange
    (inRange_div (by decide) (by decide) (inRange_of_isFinite dividend) divisor large)

/-- A number of 64 bits becomes a reading far from overflow. Its leading bit
gives the bound. -/
theorem inRange_toFloat (number : UInt64) : InRange 12 number.toFloat.toModel.unpack := by
  have bits : number.toNat.log2 ≤ 63 := log2_le_of_lt number.toNat_lt
  refine inRange_unpack_pack (by decide) (by decide) (inRange_normalize (by decide) ?_)
  rw [Int.natAbs_natCast]
  omega

/-- A count that fits a mantissa becomes a reading far from overflow. It is
converted by a product with one, which costs the bound some places. -/
theorem inRange_ofNat {number : Nat} (small : number < 2 ^ 53) :
    InRange 14 (Float.ofNat number).toModel.unpack := by
  have product : Float.ofNat number = number.toUInt64.toFloat * Float.ofBits 0x3FF0000000000000 :=
    dif_pos ⟨small, by decide⟩
  have one : InRange (-52) (Float.ofBits 0x3FF0000000000000).toModel.unpack := by decide
  rw [product]
  exact inRange_unpack_pack (by decide) (by decide)
    (inRange_decodedProduct (by decide) (inRange_toFloat _) one)

/-- Rounding to decimals keeps a number finite: the scale is one or more, and
what was scaled up without overflow is scaled back. If scaling up overflows, the
number is kept as it is. -/
theorem isFinite_roundTo {places : Nat} (few : places ≤ 15) (finite : x.isFinite = true) :
    (roundTo places x).isFinite = true := by
  have scales : ∀ places ≤ 15, (tenTo places).isFinite = true ∧ 1 ≤ tenTo places := by
    decide +kernel
  obtain ⟨bounded, large⟩ := scales places few
  unfold roundTo
  dsimp only
  by_cases scaled : (roundHalfAway (x * tenTo places)).isFinite = true
  · rw [if_pos scaled]
    exact isFinite_div scaled bounded large
  · rw [if_neg scaled]
    exact finite

end Readings

end Telemetry.Number

namespace Telemetry

open Number

/-- A span is a finite number of seconds. Its whole seconds and its nanoseconds
are bounded, and so is the sum of the two. -/
theorem Span.isFinite_toSeconds (span : Span) : span.toSeconds.isFinite = true := by
  have nanos : span.nanos < 2 ^ 53 := span.nanos_lt.trans (by decide)
  have seconds : InRange 14 span.seconds.toFloat.toModel.unpack :=
    (inRange_toFloat span.seconds).mono (by decide)
  have fraction : InRange 14 (Float.ofNat span.nanos / 1000000000.0).toModel.unpack :=
    inRange_div (by decide) (by decide) (inRange_ofNat nanos) (by decide) (by decide)
  exact isFinite_of_inRange (inRange_unpack_pack (by decide) (by decide)
    (inRange_decodedSum (by decide) seconds fraction))

end Telemetry
