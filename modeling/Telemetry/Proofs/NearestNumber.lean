import Mathlib.Algebra.Order.Group.MinMax
import Mathlib.Data.Int.Log
import Mathlib.Data.Rat.Floor
import Mathlib.Tactic.Linarith
import Mathlib.Tactic.NormNum
import Mathlib.Tactic.Positivity
import Mathlib.Tactic.Ring

/-!
# The nearest number

What rounding to 64 bits does to an exact number, said on rationals and without
bits. A number keeps 53 binary digits, and none below the place `-1074`; the
digits it loses are rounded to nearest, a half to the even digit. Numbers from
`2 ^ 1024` on, in either direction, are all rounded to that power, which stands
for an infinity.

Rounding respects the order. Within one place this is so because it never moves
a number by more than half a unit; two numbers with different last places have a
power of two between them, which rounding keeps on the same side of both.
-/
namespace Telemetry.Number

section WholeNumbers

/-- The nearest whole number to one that is not negative, a half to the even
one. -/
def halfEven (x : ℚ) : ℕ :=
  if x - ⌊x⌋₊ < 1 / 2 then ⌊x⌋₊
  else if x - ⌊x⌋₊ = 1 / 2 then ⌊x⌋₊ + ⌊x⌋₊ % 2
  else ⌊x⌋₊ + 1

/-- A whole number is its own nearest one. Its fraction is zero, so only the
first branch of the rounding applies. -/
theorem halfEven_natCast (number : ℕ) : halfEven number = number := by
  simp [halfEven]

variable {x y : ℚ}

/-- Rounding moves a number by half a unit at most. A fraction below a half is
dropped, one above is filled up, and at exactly a half either direction costs
the same, whatever the parity decides. -/
theorem abs_halfEven_sub_le (nonneg : 0 ≤ x) : |(halfEven x : ℚ) - x| ≤ 1 / 2 := by
  have low := Nat.floor_le nonneg
  have high := Nat.lt_floor_add_one x
  have parity : ((⌊x⌋₊ % 2 : ℕ) : ℚ) ≤ 1 := by
    exact_mod_cast Nat.le_of_lt_succ (Nat.mod_lt _ two_pos)
  have parityNonneg : (0 : ℚ) ≤ ((⌊x⌋₊ % 2 : ℕ) : ℚ) := Nat.cast_nonneg _
  rw [abs_le]
  unfold halfEven
  split_ifs <;> push_cast <;> constructor <;> linarith

/-- Rounding to whole numbers respects the order. Were it reversed, the results
would be a whole unit apart and each within half a unit of its number, so both
numbers would lie halfway, at the same place. -/
theorem halfEven_mono (nonneg : 0 ≤ x) (ordered : x ≤ y) : halfEven x ≤ halfEven y := by
  by_contra reversed
  have step : (halfEven y : ℚ) + 1 ≤ halfEven x := by exact_mod_cast Nat.lt_of_not_le reversed
  have first := abs_le.mp (abs_halfEven_sub_le nonneg)
  have second := abs_le.mp (abs_halfEven_sub_le (nonneg.trans ordered))
  have same : x = y := by linarith
  exact reversed (same ▸ le_rfl)

end WholeNumbers

section Places

/-- The unit of every binary place is positive, also of the places after the
point, so that quotients by it keep the order. -/
theorem two_zpow_pos (exponent : ℤ) : (0 : ℚ) < 2 ^ exponent := zpow_pos two_pos exponent

/-- The units grow with their places. With this, bounds on numbers become bounds
on exponents, which are left to linear arithmetic. -/
theorem two_zpow_mono {first second : ℤ} (ordered : first ≤ second) :
    (2 : ℚ) ^ first ≤ 2 ^ second :=
  zpow_le_zpow_right₀ one_le_two ordered

/-- A place is moved by multiplying units. The exponents are integers, so this
is the rule for fields and not the one for natural exponents. -/
theorem two_zpow_add (first second : ℤ) : (2 : ℚ) ^ (first + second) = 2 ^ first * 2 ^ second :=
  zpow_add₀ two_ne_zero first second

/-- A number with 53 digits lies below the power of two past its first digit:
the mantissa is below `2 ^ 53`, and the unit of its last place only moves that
bound. -/
theorem magnitude_lt_two_zpow {mantissa : ℕ} (short : mantissa < 2 ^ 53) (exponent : ℤ) :
    (mantissa : ℚ) * 2 ^ exponent < 2 ^ (53 + exponent) := by
  rw [two_zpow_add]
  exact mul_lt_mul_of_pos_right (by exact_mod_cast short) (two_zpow_pos exponent)

/-- If the first of the 53 digits is a one, the number reaches the power of two
at that digit. With the bound above, the number and its exponent then determine
each other up to one place. -/
theorem two_zpow_le_magnitude {mantissa : ℕ} (full : 2 ^ 52 ≤ mantissa) (exponent : ℤ) :
    2 ^ (52 + exponent) ≤ (mantissa : ℚ) * 2 ^ exponent := by
  rw [two_zpow_add]
  exact mul_le_mul_of_nonneg_right (by exact_mod_cast full) (two_zpow_pos exponent).le

/-- The last binary place that a positive number of this size keeps. -/
def lastPlace (x : ℚ) : ℤ := max (Int.log 2 x - 52) (-1074)

variable {x y : ℚ}

/-- A greater number keeps no lower places. The logarithm is monotone, and so
are the shift by 52 places and the cut at the lowest place. -/
theorem lastPlace_mono (positive : 0 < x) (ordered : x ≤ y) : lastPlace x ≤ lastPlace y :=
  max_le_max_right _ (Int.sub_le_sub_right (Int.log_mono_right positive ordered) 52)

/-- Every number lies below the power of two 53 places above the last one it
keeps, whether that place comes from its size or is the lowest place there
is. -/
theorem lt_two_zpow_lastPlace (x : ℚ) : x < 2 ^ (lastPlace x + 53) := by
  have above : x < 2 ^ (Int.log 2 x + 1) := Int.lt_zpow_succ_log_self (R := ℚ) one_lt_two x
  refine above.trans_le (two_zpow_mono ?_)
  unfold lastPlace
  omega

/-- Above the lowest place a number has all its 53 digits. There the last place
is 52 below the first digit of the number, and the number reaches the power of
two at that digit. -/
theorem two_zpow_lastPlace_le (positive : 0 < x) (above : -1074 < lastPlace x) :
    2 ^ (lastPlace x + 52) ≤ x := by
  have below : (2 : ℚ) ^ Int.log 2 x ≤ x := Int.zpow_log_le_self one_lt_two positive
  refine (two_zpow_mono ?_).trans below
  unfold lastPlace at *
  omega

/-- A number below a power of two keeps all places from 53 below that power on.
So a number that is already short enough loses none of its digits to
rounding. -/
theorem lastPlace_le_of_lt {exponent : ℤ} (positive : 0 < x) (least : -1074 ≤ exponent)
    (small : x < 2 ^ (53 + exponent)) : lastPlace x ≤ exponent := by
  have digits : Int.log 2 x < 53 + exponent :=
    (Int.lt_zpow_iff_log_lt (R := ℚ) one_lt_two positive).mp small
  unfold lastPlace
  omega

end Places

section Magnitudes

/-- The nearest number with 53 digits to one that is not negative. -/
def nearestMagnitude (x : ℚ) : ℚ := halfEven (x / 2 ^ lastPlace x) * 2 ^ lastPlace x

variable {x y : ℚ}

/-- Rounding keeps a magnitude from becoming negative, since it counts units by
a natural number. -/
theorem nearestMagnitude_nonneg (x : ℚ) : 0 ≤ nearestMagnitude x :=
  mul_nonneg (Nat.cast_nonneg _) (two_zpow_pos _).le

/-- Zero is rounded to itself. It has no first digit, but it counts no units at
any place. -/
theorem nearestMagnitude_zero : nearestMagnitude 0 = 0 := by
  have zero : halfEven 0 = 0 := by exact_mod_cast halfEven_natCast 0
  rw [nearestMagnitude, zero_div, zero, Nat.cast_zero, zero_mul]

/-- Rounding up can carry into a 54th digit, but a carry leads to the next power
of two and no further: before rounding the count of units is at most that power,
which is whole. -/
theorem halfEven_le (positive : 0 < x) : halfEven (x / 2 ^ lastPlace x) ≤ 2 ^ 53 := by
  have below : x / 2 ^ lastPlace x ≤ ((2 ^ 53 : ℕ) : ℚ) := by
    rw [div_le_iff₀ (two_zpow_pos _)]
    refine (lt_two_zpow_lastPlace x).le.trans_eq ?_
    rw [add_comm, two_zpow_add]
    norm_num
  exact (halfEven_mono (div_pos positive (two_zpow_pos _)).le below).trans_eq
    (halfEven_natCast _)

/-- Above the lowest place, rounding keeps the first digit: the count of units
reaches `2 ^ 52` before rounding, and that bound is whole. -/
theorem le_halfEven (positive : 0 < x) (above : -1074 < lastPlace x) :
    2 ^ 52 ≤ halfEven (x / 2 ^ lastPlace x) := by
  have beyond : ((2 ^ 52 : ℕ) : ℚ) ≤ x / 2 ^ lastPlace x := by
    rw [le_div_iff₀ (two_zpow_pos _)]
    refine Eq.trans_le ?_ (two_zpow_lastPlace_le positive above)
    rw [add_comm, two_zpow_add]
    norm_num
  exact (halfEven_natCast _).symm.trans_le (halfEven_mono (Nat.cast_nonneg _) beyond)

/-- Rounding magnitudes respects the order. Numbers that keep the same last
place are compared by their counts of units. Otherwise a power of two lies
between them, which the lower number does not pass by a carry and the higher one
does not fall below. -/
theorem nearestMagnitude_mono (nonneg : 0 ≤ x) (ordered : x ≤ y) :
    nearestMagnitude x ≤ nearestMagnitude y := by
  rcases nonneg.eq_or_lt with rfl | positive
  · rw [nearestMagnitude_zero]
    exact nearestMagnitude_nonneg y
  have place := two_zpow_pos (lastPlace x)
  rcases (lastPlace_mono positive ordered).eq_or_lt with same | lower
  · unfold nearestMagnitude
    rw [← same]
    apply mul_le_mul_of_nonneg_right _ place.le
    apply Nat.cast_le.mpr
    exact halfEven_mono (div_pos positive place).le (div_le_div_of_nonneg_right ordered place.le)
  · -- The power of two between them is `2 ^ (lastPlace x + 53)`.
    have carried : (halfEven (x / 2 ^ lastPlace x) : ℚ) ≤ 2 ^ 53 := by
      exact_mod_cast halfEven_le positive
    have above : -1074 < lastPlace y := (le_max_right _ _).trans_lt lower
    have full : (2 ^ 52 : ℚ) ≤ halfEven (y / 2 ^ lastPlace y) := by
      exact_mod_cast le_halfEven (positive.trans_le ordered) above
    calc nearestMagnitude x
        ≤ 2 ^ 53 * 2 ^ lastPlace x := mul_le_mul_of_nonneg_right carried place.le
      _ = 2 ^ 52 * 2 ^ (1 + lastPlace x) := by rw [two_zpow_add]; ring
      _ ≤ 2 ^ 52 * 2 ^ lastPlace y :=
          mul_le_mul_of_nonneg_left (two_zpow_mono (by omega)) (by positivity)
      _ ≤ nearestMagnitude y := mul_le_mul_of_nonneg_right full (two_zpow_pos _).le

/-- A number with at most 53 digits, none of them below the lowest place, is its
own nearest. It is a whole number of units of the last place that it keeps, and
whole numbers are not rounded. -/
theorem nearestMagnitude_of_short {mantissa : ℕ} {exponent : ℤ} (short : mantissa < 2 ^ 53)
    (least : -1074 ≤ exponent) :
    nearestMagnitude (mantissa * 2 ^ exponent) = mantissa * 2 ^ exponent := by
  rcases Nat.eq_zero_or_pos mantissa with rfl | positive
  · rw [Nat.cast_zero, zero_mul, nearestMagnitude_zero]
  have nonzero : (0 : ℚ) < mantissa * 2 ^ exponent :=
    mul_pos (Nat.cast_pos.mpr positive) (two_zpow_pos exponent)
  have kept := lastPlace_le_of_lt nonzero least (magnitude_lt_two_zpow short exponent)
  obtain ⟨count, counted⟩ := Int.eq_ofNat_of_zero_le (Int.sub_nonneg.mpr kept)
  have split : (2 : ℚ) ^ exponent = 2 ^ count * 2 ^ lastPlace (mantissa * 2 ^ exponent) := by
    rw [← zpow_natCast, ← two_zpow_add]
    congr 1
    exact eq_add_of_sub_eq counted
  have whole : (mantissa : ℚ) * 2 ^ exponent / 2 ^ lastPlace (mantissa * 2 ^ exponent) =
      ((mantissa * 2 ^ count : ℕ) : ℚ) := by
    rw [div_eq_iff (two_zpow_pos _).ne']
    push_cast
    rw [mul_assoc, ← split]
  rw [nearestMagnitude, whole, halfEven_natCast, ← whole, div_mul_cancel₀ _ (two_zpow_pos _).ne']

end Magnitudes

section Signed

/-- The nearest number with 53 digits. -/
def nearest (x : ℚ) : ℚ := if 0 ≤ x then nearestMagnitude x else -nearestMagnitude (-x)

/-- Where an infinity stands: the power of two past the greatest number. -/
def limit : ℚ := 2 ^ (1024 : ℤ)

/-- A number confined to the range. -/
def confined (x : ℚ) : ℚ := max (-limit) (min limit x)

/-- An exact number rounded to 64 bits. -/
def rounded (x : ℚ) : ℚ := confined (nearest x)

variable {x y : ℚ}

/-- The range is not empty: it reaches from one power of two to its opposite, so
that zero lies inside. -/
theorem limit_pos : 0 < limit := two_zpow_pos 1024

/-- From zero on the sign plays no part, and rounding is what it is for
magnitudes. -/
theorem nearest_of_nonneg (nonneg : 0 ≤ x) : nearest x = nearestMagnitude x := if_pos nonneg

/-- Rounding does not change the side of zero on which a number lies. A
magnitude is rounded to a magnitude, and below zero the case is mirrored. -/
theorem nearest_nonneg (nonneg : 0 ≤ x) : 0 ≤ nearest x := by
  rw [nearest_of_nonneg nonneg]
  exact nearestMagnitude_nonneg x

/-- Rounding is symmetric about zero. Halves go to the even digit, which does
not prefer a direction, so opposite numbers are rounded to opposite numbers. -/
theorem nearest_neg (x : ℚ) : nearest (-x) = -nearest x := by
  rcases lt_trichotomy x 0 with negative | rfl | positive
  · rw [nearest, nearest, if_pos (by linarith), if_neg (by linarith), neg_neg]
  · simp [nearest, nearestMagnitude_zero]
  · rw [nearest, nearest, if_neg (by linarith), if_pos positive.le, neg_neg]

/-- Rounding respects the order. On one side of zero this is so for the
magnitudes. For numbers on different sides it is enough that each stays on its
own. -/
theorem nearest_mono (ordered : x ≤ y) : nearest x ≤ nearest y := by
  rcases le_or_gt 0 x with nonneg | negative
  · rw [nearest_of_nonneg nonneg, nearest_of_nonneg (nonneg.trans ordered)]
    exact nearestMagnitude_mono nonneg ordered
  rcases le_or_gt 0 y with above | below
  · have mirrored := nearest_nonneg (neg_nonneg.mpr negative.le)
    rw [nearest_neg] at mirrored
    exact (neg_nonneg.mp mirrored).trans (nearest_nonneg above)
  · rw [nearest, nearest, if_neg (by linarith), if_neg (by linarith)]
    exact neg_le_neg (nearestMagnitude_mono (by linarith) (neg_le_neg ordered))

/-- Powers of two are not rounded, down to the lowest place: they have a single
digit. They are what is put between two numbers to compare them after
rounding. -/
theorem nearest_two_zpow {exponent : ℤ} (least : -1074 ≤ exponent) :
    nearest (2 ^ exponent) = 2 ^ exponent := by
  have own := nearestMagnitude_of_short (by norm_num : 1 < 2 ^ 53) least
  rw [nearest_of_nonneg (two_zpow_pos exponent).le]
  rwa [Nat.cast_one, one_mul] at own

/-- Cutting off at both ends of the range keeps the order, as a maximum and a
minimum do. -/
theorem confined_mono (ordered : x ≤ y) : confined x ≤ confined y :=
  max_le_max_left _ (min_le_min_left _ ordered)

/-- The range is symmetric, so that cutting off commutes with the change of
sign. The order in which the two ends are applied does not matter, because the
lower lies below the upper. -/
theorem confined_neg (x : ℚ) : confined (-x) = -confined x := by
  rw [confined, confined, max_min_distrib_left, max_eq_right (neg_le_self limit_pos.le),
    ← min_neg_neg, neg_neg, ← max_neg_neg]

/-- Rounding to 64 bits respects the order, overflow included: both of its steps
do. All bounds on sums and quotients of readings rest on this. -/
theorem rounded_mono (ordered : x ≤ y) : rounded x ≤ rounded y :=
  confined_mono (nearest_mono ordered)

/-- Opposite numbers have opposite results, overflow included. So a fact about
numbers from zero on carries over to the others. -/
theorem rounded_neg (x : ℚ) : rounded (-x) = -rounded x := by
  rw [rounded, nearest_neg, confined_neg, rounded]

/-- Zero is kept, so that the sign of a result can be read off from that of the
exact one. -/
theorem rounded_zero : rounded 0 = 0 := by
  rw [rounded, nearest_of_nonneg le_rfl, nearestMagnitude_zero, confined,
    min_eq_right limit_pos.le, max_eq_right (neg_nonpos.mpr limit_pos.le)]

/-- A result from zero on stays there. This is monotonicity against zero, which
is kept. -/
theorem rounded_nonneg (nonneg : 0 ≤ x) : 0 ≤ rounded x :=
  rounded_zero.symm.trans_le (rounded_mono nonneg)

/-- Rounding commutes with taking the magnitude, by the symmetry about zero.
Bounds on results may thus be proved for magnitudes. -/
theorem abs_rounded (x : ℚ) : |rounded x| = rounded |x| := by
  rcases le_total 0 x with nonneg | nonpos
  · rw [abs_of_nonneg nonneg, abs_of_nonneg (rounded_nonneg nonneg)]
  · have mirrored := rounded_nonneg (neg_nonneg.mpr nonpos)
    rw [rounded_neg] at mirrored
    rw [abs_of_nonpos nonpos, abs_of_nonpos (neg_nonneg.mp mirrored), rounded_neg]

/-- From zero on only the upper end of the range can matter, and it only lowers
the result. -/
theorem rounded_le_nearest (nonneg : 0 ≤ x) : rounded x ≤ nearest x :=
  max_le ((neg_nonpos.mpr limit_pos.le).trans (nearest_nonneg nonneg)) (min_le_right _ _)

/-- Half of a rounded number does not lie above the number. Rounding goes at
most to the next power of two, and half of that is the power at the first digit
of the number, which it reaches. Below the lowest place there is no such power,
so the number must not be smaller than that. -/
theorem rounded_half_le (least : 2 ^ (-1074 : ℤ) ≤ x) : rounded (rounded x / 2) ≤ x := by
  have positive : 0 < x := (two_zpow_pos _).trans_le least
  have place : -1074 ≤ Int.log 2 x :=
    (Int.zpow_le_iff_le_log (R := ℚ) one_lt_two positive).mp least
  have below : (2 : ℚ) ^ Int.log 2 x ≤ x := Int.zpow_log_le_self one_lt_two positive
  have above : x < 2 ^ (Int.log 2 x + 1) := Int.lt_zpow_succ_log_self (R := ℚ) one_lt_two x
  have twice : rounded x ≤ 2 ^ (Int.log 2 x + 1) :=
    calc rounded x ≤ nearest x := rounded_le_nearest positive.le
      _ ≤ nearest (2 ^ (Int.log 2 x + 1)) := nearest_mono above.le
      _ = 2 ^ (Int.log 2 x + 1) := nearest_two_zpow (by omega)
  have half : rounded x / 2 ≤ 2 ^ Int.log 2 x := by
    rw [two_zpow_add, zpow_one] at twice
    linarith
  calc rounded (rounded x / 2) ≤ rounded (2 ^ Int.log 2 x) := rounded_mono half
    _ ≤ nearest (2 ^ Int.log 2 x) := rounded_le_nearest (two_zpow_pos _).le
    _ = 2 ^ Int.log 2 x := nearest_two_zpow place
    _ ≤ x := below

end Signed

end Telemetry.Number
