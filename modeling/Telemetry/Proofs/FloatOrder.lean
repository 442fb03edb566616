import Mathlib.Data.Prod.Lex
import Telemetry.Number.Exact

/-!
# Comparison and finiteness of readings

What the walk of a channel relies on in 64-bit arithmetic, read off the decoded
form of a number. Two numbers that are not NaN can be compared one way or the
other, as their ranks are, so the order is transitive. A number between finite
bounds is finite, and neither the sum of a finite and a comparable number nor
the product of finite ones is NaN. A sum or a product may still overflow to an
infinity: encoding sends a finite result that is too large there, and never to
NaN.

Clamping is total here. `clamp?` is the clamp that gives up when its bounds are
not in order, as they never are when one of them is NaN, so that a caller can be
shown never to ask for such a clamp.
-/
namespace Telemetry.Number

open Float.Model (UnpackedFloat Format)
open Float.Model.UnpackedFloat

/-- Exchanging the sides of a comparison exchanges its outcome. Only where both
sides are finite is there anything to compute; elsewhere the signs decide. -/
theorem compare_swap (left right : UnpackedFloat) :
    UnpackedFloat.compare right left =
      (UnpackedFloat.compare left right).map Ordering.swap := by
  cases left with
  | infinity sign =>
    cases sign <;> cases right with
    | infinity other => cases other <;> rfl
    | notANumber => rfl
    | zero other => rfl
    | finite other mantissa exponent positive => cases other <;> rfl
  | notANumber => cases right <;> rfl
  | zero sign =>
    cases right with
    | infinity other => cases other <;> rfl
    | notANumber => rfl
    | zero other => rfl
    | finite other mantissa exponent positive => cases other <;> rfl
  | finite sign mantissa exponent positive =>
    cases sign <;> cases right with
    | infinity other => cases other <;> rfl
    | notANumber => rfl
    | zero other => rfl
    | finite other mantissa' exponent' positive' =>
      cases other <;> dsimp only [UnpackedFloat.compare] <;>
        simp [Ordering.swap_then, Int.compare_swap, Nat.compare_swap]

/-- A comparison has an outcome exactly when neither side is NaN. Two infinities
of one sign are equal, and two zeros are whatever their signs. -/
theorem compare_isSome (left right : UnpackedFloat) :
    (UnpackedFloat.compare left right).isSome = (!left.isNaN && !right.isNaN) := by
  cases left with
  | notANumber => rfl
  | infinity sign => cases sign <;> cases right <;> rfl
  | zero sign =>
    cases right with
    | infinity other => cases other <;> rfl
    | notANumber => rfl
    | zero other => rfl
    | finite other mantissa exponent positive => cases other <;> rfl
  | finite sign mantissa exponent positive =>
    cases sign <;> cases right with
    | infinity other => cases other <;> rfl
    | notANumber => rfl
    | zero other => rfl
    | finite other mantissa' exponent' positive' => cases other <;> rfl

/-- A comparable number equals itself, an infinity included. NaN does not, which
is why it is left out. -/
theorem compare_self {number : UnpackedFloat} (comparable : number.isNaN = false) :
    UnpackedFloat.compare number number = some .eq := by
  cases number with
  | infinity sign => cases sign <;> rfl
  | notANumber => exact absurd comparable.symm Bool.false_ne_true
  | zero sign => rfl
  | finite sign mantissa exponent positive =>
    cases sign <;> dsimp only [UnpackedFloat.compare] <;> simp

/-- Infinity exceeds every finite number, without a look at the digits. -/
theorem compare_infinity {number : UnpackedFloat} (finite : number.isFinite = true) :
    UnpackedFloat.compare (.infinity .positive) number = some .gt := by
  cases number with
  | infinity sign => exact absurd finite Bool.false_ne_true
  | notANumber => exact absurd finite Bool.false_ne_true
  | _ => rfl

/-- Every finite number exceeds negative infinity, again by the kind of number
alone. -/
theorem compare_negativeInfinity {number : UnpackedFloat} (finite : number.isFinite = true) :
    UnpackedFloat.compare number (.infinity .negative) = some .gt := by
  cases number with
  | infinity sign => exact absurd finite Bool.false_ne_true
  | notANumber => exact absurd finite Bool.false_ne_true
  | zero sign => rfl
  | finite sign mantissa exponent positive => cases sign <;> rfl

/-- Where a number stands among the others: by its sign, then by its exponent,
then by its mantissa. Below zero the last two count the other way. -/
def rank : UnpackedFloat → ℤ ×ₗ ℤ ×ₗ ℤ
  | .infinity .negative => toLex (-2, toLex (0, 0))
  | .finite .negative mantissa exponent _ => toLex (-1, toLex (-exponent, -mantissa))
  | .zero _ | .notANumber => toLex (0, toLex (0, 0))
  | .finite .positive mantissa exponent _ => toLex (1, toLex (exponent, mantissa))
  | .infinity .positive => toLex (2, toLex (0, 0))

/-- Comparing two numbers that are not NaN is comparing where they stand. The
comparison looks at the sign, then at the exponent and then at the mantissa,
which is the order of the ranks; NaN has a rank too, but no comparison with it
comes out. -/
theorem compare_eq_lt_iff {left right : UnpackedFloat} (comparable : left.isNaN = false)
    (alsoComparable : right.isNaN = false) :
    UnpackedFloat.compare left right = some .lt ↔ rank left < rank right := by
  have signs : compare Sign.negative Sign.positive = .lt := by decide
  rcases left with ⟨_ | _⟩ | _ | _ | ⟨_ | _, mantissa, exponent, positive⟩
  case notANumber => exact absurd comparable.symm Bool.false_ne_true
  all_goals
    rcases right with ⟨_ | _⟩ | _ | _ | ⟨_ | _, mantissa', exponent', positive'⟩
    case notANumber => exact absurd alsoComparable.symm Bool.false_ne_true
    all_goals
      dsimp only [UnpackedFloat.compare, rank]
      simp [Prod.Lex.lt_iff, Ordering.then_eq_lt, Ordering.swap_then, compare_lt_iff_lt,
        compare_gt_iff_gt, signs]

/-- What is finite can be compared. The two properties are read off the same
decoded form. -/
theorem isNaN_of_decodedFinite {number : UnpackedFloat} (bounded : number.isFinite = true) :
    number.isNaN = false := by
  cases number with
  | notANumber => exact absurd bounded Bool.false_ne_true
  | _ => rfl

section Order

variable {x y z low high : Float}

/-- The order of readings is the comparison of their decoded forms. -/
theorem le_iff_compare :
    x ≤ y ↔ (UnpackedFloat.compare x.toModel.unpack y.toModel.unpack).any Ordering.isLE = true := by
  change decide (x.toModel ≤ y.toModel) = true ↔ _
  rw [decide_eq_true_iff]
  exact Iff.rfl

/-- The strict order of readings is the comparison of their decoded forms, with
one outcome only. -/
theorem lt_iff_compare :
    x < y ↔ UnpackedFloat.compare x.toModel.unpack y.toModel.unpack = some .lt := by
  change decide (x.toModel < y.toModel) = true ↔ _
  rw [decide_eq_true_iff]
  exact beq_iff_eq

/-- A finite reading is not NaN, so that it has its place in the order. -/
theorem isNaN_of_isFinite (finite : x.isFinite = true) : x.isNaN = false :=
  isNaN_of_decodedFinite finite

/-- The order is reflexive on what can be compared. On NaN it is not. -/
theorem le_self (comparable : x.isNaN = false) : x ≤ x := by
  rw [le_iff_compare, compare_self comparable]
  rfl

/-- Of two comparable numbers that are not in strict order, the second is not
the greater: the comparison has an outcome, and only the others are left. -/
theorem le_of_not_lt (left : x.isNaN = false) (right : y.isNaN = false) (notBelow : ¬ x < y) :
    y ≤ x := by
  rw [lt_iff_compare] at notBelow
  have decided : (UnpackedFloat.compare x.toModel.unpack y.toModel.unpack).isSome = true := by
    rw [compare_isSome]
    change (!x.isNaN && !y.isNaN) = true
    rw [left, right]
    rfl
  obtain ⟨outcome, compared⟩ := Option.isSome_iff_exists.mp decided
  rw [compared] at notBelow
  rw [le_iff_compare, compare_swap, compared]
  cases outcome with
  | lt => exact absurd rfl notBelow
  | eq => rfl
  | gt => rfl

/-- Two comparable numbers are in order or strictly in the other order, and not
both. So the order is total once NaN is set aside. -/
theorem le_iff_not_lt (left : x.isNaN = false) (right : y.isNaN = false) : y ≤ x ↔ ¬ x < y := by
  refine ⟨?_, le_of_not_lt left right⟩
  intro ordered below
  rw [lt_iff_compare] at below
  rw [le_iff_compare, compare_swap, below] at ordered
  exact absurd ordered (by decide)

/-- The order of comparable readings is that of their ranks. What is known about
lexicographic orders carries over from here. -/
theorem le_iff_rank (left : x.isNaN = false) (right : y.isNaN = false) :
    x ≤ y ↔ rank x.toModel.unpack ≤ rank y.toModel.unpack := by
  rw [le_iff_not_lt right left, lt_iff_compare, compare_eq_lt_iff right left, not_lt]

/-- The order is transitive where all three can be compared, as that of the
ranks is. -/
theorem le_trans (left : x.isNaN = false) (middle : y.isNaN = false) (right : z.isNaN = false)
    (first : x ≤ y) (second : y ≤ z) : x ≤ z := by
  rw [le_iff_rank left middle] at first
  rw [le_iff_rank middle right] at second
  rw [le_iff_rank left right]
  exact first.trans second

/-- A number between finite bounds is finite: an infinity lies beyond one of the
bounds and NaN is comparable with neither. -/
theorem isFinite_of_between (lowFinite : low.isFinite = true) (highFinite : high.isFinite = true)
    (above : low ≤ x) (below : x ≤ high) : x.isFinite = true := by
  rw [le_iff_compare] at above below
  change x.toModel.unpack.isFinite = true
  cases decoded : x.toModel.unpack with
  | zero sign => rfl
  | finite sign mantissa exponent positive => rfl
  | notANumber =>
    rw [decoded] at below
    exact absurd below Bool.false_ne_true
  | infinity sign =>
    cases sign with
    | positive =>
      rw [decoded, compare_infinity highFinite] at below
      exact absurd below (by decide)
    | negative =>
      rw [decoded, compare_negativeInfinity lowFinite] at above
      exact absurd above (by decide)

end Order

/-- How a number is decoded from its fields. A full exponent field stands for an
infinity or for NaN, and an empty one for zero or for a mantissa without its
leading one. -/
inductive Decoding {format : Format} (exponent : BitVec format.exponentBits)
    (mantissa : BitVec format.mantissaBitsWithoutImplicit) (sign : Sign) :
    UnpackedFloat → Prop where
  | infinity (full : exponent = -1#_) (empty : mantissa = 0#_) :
      Decoding exponent mantissa sign (.infinity sign)
  | notANumber (full : exponent = -1#_) (filled : mantissa ≠ 0#_) :
      Decoding exponent mantissa sign .notANumber
  | zero (short : exponent ≠ -1#_) (least : exponent = 0#_) (empty : mantissa = 0#_) :
      Decoding exponent mantissa sign (.zero sign)
  | subnormal (short : exponent ≠ -1#_) (least : exponent = 0#_) (filled : mantissa ≠ 0#_)
      (positive : 0 < mantissa.toNat) :
      Decoding exponent mantissa sign (.finite sign mantissa.toNat
        (exponent.toNat - (format.exponentBias + format.mantissaBitsWithoutImplicit) + 1) positive)
  | normal (short : exponent ≠ -1#_) (raised : exponent ≠ 0#_)
      (positive : 0 < (1#1 ++ mantissa).toNat) :
      Decoding exponent mantissa sign (.finite sign (1#1 ++ mantissa).toNat
        (exponent.toNat - (format.exponentBias + format.mantissaBitsWithoutImplicit)) positive)

/-- Every bit pattern is decoded in one of these ways. The cases are the
branches of the decoder, so what is said of a decoded number is proved branch by
branch from this alone. -/
theorem decoding_unpack (format : Format) (bits : BitVec format.numBits) :
    Decoding (unpackExponent bits) (unpackMantissa bits) (Sign.ofBitVec (unpackSign bits))
      (unpack format bits) := by
  unfold unpack
  dsimp only
  by_cases full : unpackExponent bits = -1#_
  · rw [if_pos full]
    by_cases empty : unpackMantissa bits = 0#_
    · rw [if_pos empty]
      exact .infinity full empty
    · rw [if_neg empty]
      exact .notANumber full empty
  · rw [if_neg full]
    by_cases least : unpackExponent bits = 0#_
    · rw [if_pos least]
      by_cases empty : unpackMantissa bits = 0#_
      · rw [dif_pos empty]
        exact .zero full least empty
      · rw [dif_neg empty]
        exact .subnormal full least empty _
    · rw [if_neg least]
      exact .normal full least _

/-- A bit pattern decodes to NaN exactly when its exponent field is full and its
mantissa field is not empty. Only one of the five ways of decoding gives NaN. -/
theorem isNaN_unpack (format : Format) (bits : BitVec format.numBits) :
    (unpack format bits).isNaN =
      decide (unpackExponent bits = -1#_ ∧ unpackMantissa bits ≠ 0#_) := by
  have decoded := decoding_unpack format bits
  generalize unpack format bits = number at decoded ⊢
  cases decoded with
  | infinity full empty => exact (decide_eq_false fun nan => nan.2 empty).symm
  | notANumber full filled => exact (decide_eq_true ⟨full, filled⟩).symm
  | zero short | subnormal short | normal short =>
    exact (decide_eq_false fun nan => short nan.1).symm

/-- Encoding makes no NaN: a result too large for its exponent field becomes an
infinity, and any other leaves that field short of full. -/
theorem isNaN_unpack_pack (format : Format) {number : UnpackedFloat}
    (comparable : number.isNaN = false) :
    (unpack format (pack format number)).isNaN = false := by
  rw [isNaN_unpack]
  -- Encoding tells apart NaN, infinities, zeros and, of the finite numbers, those too large,
  -- the normal and the subnormal ones.
  fun_cases pack format number with
  | case1 => exact absurd comparable.symm Bool.false_ne_true
  | case2 sign => simp [packedInfinity]
  | case3 sign => simp [packedZero]
  | case4 sign mantissa exponent positive biased overflow => simp [packedInfinity]
  | case5 sign mantissa exponent positive bits biased fits normal =>
    have short : BitVec.ofNat format.exponentBits biased ≠ -1#_ := by
      intro full
      have value := congrArg BitVec.toNat full
      simp only [BitVec.toNat_ofNat, BitVec.neg_one_eq_allOnes, BitVec.toNat_allOnes] at value
      rw [Nat.mod_eq_of_lt (by omega)] at value
      omega
    simp [short]
  | case6 sign mantissa exponent positive bits biased fits subnormal =>
    have short : (0#_ : BitVec format.exponentBits) ≠ -1#_ := by
      simp [Nat.pos_iff_ne_zero.mp format.he]
    simp [short]

/-- The number with a mantissa that may be zero. -/
def ofMantissa (sign : Sign) (mantissa : Nat) (exponent : Int) : UnpackedFloat :=
  if zero : mantissa = 0 then .zero sign
  else .finite sign mantissa exponent (Nat.pos_of_ne_zero zero)

/-- A number made from a mantissa is finite, whether the mantissa is zero or
not. -/
theorem isFinite_ofMantissa (sign : Sign) (mantissa : Nat) (exponent : Int) :
    (ofMantissa sign mantissa exponent).isFinite = true := by
  unfold ofMantissa
  by_cases zero : mantissa = 0
  · rw [dif_pos zero]
    rfl
  · rw [dif_neg zero]
    rfl

/-- Rounding shortens the mantissa twice: once to the digits that fit, and once
more if rounding them up carried into a further digit. -/
theorem roundWithAccuracy_eq (sign : Sign) (mantissa : Nat) (exponent : Int) (accuracy : Accuracy) :
    let first := shiftToTargetExponent Format.binary64 mantissa exponent accuracy
    let second := shiftToTargetExponent Format.binary64 first.1.roundedMantissa first.2 .exact
    roundWithAccuracy Format.binary64 sign mantissa exponent accuracy =
      ofMantissa sign second.1.mantissa second.2 :=
  rfl

/-- Rounding yields a zero or a finite number, before its range is looked at: it
ends by making a number from a mantissa. -/
theorem isFinite_roundWithAccuracy (sign : Sign) (mantissa : Nat) (exponent : Int)
    (accuracy : Accuracy) :
    (roundWithAccuracy Format.binary64 sign mantissa exponent accuracy).isFinite = true := by
  rw [roundWithAccuracy_eq]
  exact isFinite_ofMantissa ..

/-- A signed mantissa is normalized to a finite number. Zero gets its sign from
outside, and anything else is rounded. -/
theorem isFinite_normalize (mantissa exponent : Int) (sign : Sign) :
    (UnpackedFloat.normalize Format.binary64 mantissa exponent sign).isFinite = true := by
  unfold UnpackedFloat.normalize
  split
  · exact isFinite_roundWithAccuracy ..
  · rfl
  · exact isFinite_roundWithAccuracy ..

/-- Only opposite infinities have no sum. One side is finite here, so there is
no second infinity to oppose the first. -/
theorem isNaN_decodedSum {left right : UnpackedFloat} (bounded : left.isFinite = true)
    (comparable : right.isNaN = false) : (add Format.binary64 left right).isNaN = false := by
  cases left with
  | infinity sign => exact absurd bounded Bool.false_ne_true
  | notANumber => exact absurd bounded Bool.false_ne_true
  | zero sign =>
    cases right with
    | notANumber => exact absurd comparable.symm Bool.false_ne_true
    | zero other => cases sign <;> cases other <;> rfl
    | _ => rfl
  | finite sign mantissa exponent positive =>
    cases right with
    | notANumber => exact absurd comparable.symm Bool.false_ne_true
    | finite other mantissa' exponent' positive' =>
      exact isNaN_of_decodedFinite (isFinite_normalize ..)
    | _ => rfl

/-- The product of finite numbers is finite, before its range is looked at. If
either is zero the product is; otherwise it is the rounded product of the
mantissas. -/
theorem isFinite_decodedProduct {left right : UnpackedFloat} (first : left.isFinite = true)
    (second : right.isFinite = true) : (mul Format.binary64 left right).isFinite = true := by
  cases left with
  | infinity sign => exact absurd first Bool.false_ne_true
  | notANumber => exact absurd first Bool.false_ne_true
  | zero sign =>
    cases right with
    | infinity other => exact absurd second Bool.false_ne_true
    | notANumber => exact absurd second Bool.false_ne_true
    | _ => rfl
  | finite sign mantissa exponent positive =>
    cases right with
    | infinity other => exact absurd second Bool.false_ne_true
    | notANumber => exact absurd second Bool.false_ne_true
    | zero other => rfl
    | finite other mantissa' exponent' positive' => exact isFinite_roundWithAccuracy ..

section Arithmetic

variable {x y low high : Float}

/-- A finite number plus a comparable one is comparable: the decoded sum is no
NaN, and encoding makes none. -/
theorem isNaN_add (finite : x.isFinite = true) (comparable : y.isNaN = false) :
    (x + y).isNaN = false :=
  isNaN_unpack_pack _ (isNaN_decodedSum finite comparable)

/-- The product of finite numbers is comparable, though it may have become an
infinity on encoding. -/
theorem isNaN_mul (first : x.isFinite = true) (second : y.isFinite = true) :
    (x * y).isNaN = false :=
  isNaN_unpack_pack _ (isNaN_of_decodedFinite (isFinite_decodedProduct first second))

/-- Clamping a comparable number between finite bounds in order yields a finite
number between them. Whichever branch the clamp takes, the result is a bound or
a number that lies between the two. -/
theorem clamp_between (lowFinite : low.isFinite = true) (highFinite : high.isFinite = true)
    (ordered : low ≤ high) (comparable : x.isNaN = false) :
    (clamp low high x).isFinite = true ∧ low ≤ clamp low high x ∧ clamp low high x ≤ high := by
  have lowComparable := isNaN_of_isFinite lowFinite
  have highComparable := isNaN_of_isFinite highFinite
  unfold clamp
  by_cases under : x < low
  · rw [if_pos under]
    exact ⟨lowFinite, le_self lowComparable, ordered⟩
  · rw [if_neg under]
    by_cases beyond : high < x
    · rw [if_pos beyond]
      exact ⟨highFinite, ordered, le_self highComparable⟩
    · rw [if_neg beyond]
      have above : low ≤ x := le_of_not_lt comparable lowComparable under
      have below : x ≤ high := le_of_not_lt highComparable comparable beyond
      exact ⟨isFinite_of_between lowFinite highFinite above below, above, below⟩

/-- The clamp that gives up on bounds that are not in order. Nothing is in order
with NaN. -/
def clamp? (low high x : Float) : Option Float :=
  if low ≤ high then some (clamp low high x) else none

end Arithmetic

end Telemetry.Number
