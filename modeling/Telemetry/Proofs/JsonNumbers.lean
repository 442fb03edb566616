import Telemetry.Proofs.AverageExecution
import Telemetry.Proofs.JsonReading

/-!
# Every finite number is written as a number of the format

The format is strict about its literals: the whole part has no leading zero
unless it is zero, and digits must follow a point and an exponent mark. A
reading is laid out from its digits in one of five ways, depending on where the
point falls. None of them breaks these rules, because the digits of a number
other than zero do not start with zero, and zero is written without an exponent.

The digits are not zero because the decimal lies among the reals that round to
the number, and zero is not one of them.
-/
namespace Telemetry.Number

/-- Trailing zeros go, but not the last digit. A number that is divided by ten
because ten divides it does not become zero by it. -/
theorem Decimal.digits_trim_ne_zero {decimal : Decimal} (nonzero : decimal.digits ≠ 0) :
    decimal.trim.digits ≠ 0 := by
  fun_induction Decimal.trim decimal with
  | case1 decimal trailing inductionHypothesis =>
    apply inductionHypothesis
    simp only
    omega
  | case2 => exact nonzero

/-- A decimal that is found on a grid lies in the interval, for the search tries
its candidates before it returns one. -/
theorem Basin.contains_of_onGrid? {basin : Basin} {tie : Tie} {exponent : Int} {found : Decimal}
    (hit : basin.onGrid? tie exponent = some found) : basin.contains found = true := by
  unfold Basin.onGrid? at hit
  simp only at hit
  grind

/-- Zero lies in the interval of no other number. The lower end of the interval
is above zero, since the mantissa is a whole number and not zero. -/
theorem Basin.contains_zero {mantissa : Nat} (nonzero : mantissa ≠ 0) (exponent power : Int) :
    (Basin.ofParts mantissa exponent).contains ⟨0, power⟩ = false := by
  have low : 0 < (Basin.ofParts mantissa exponent).low := by
    apply Nat.mul_pos
    · split <;> omega
    · exact Nat.pow_pos (by decide)
  have left : 0 < (Basin.ofParts mantissa exponent).low * Nat.pow 10 (-power).toNat :=
    Nat.mul_pos low (Nat.pow_pos (by decide))
  rw [Basin.contains]
  simp only [Nat.zero_mul]
  split
  · simp only [decide_eq_false_iff_not]
    omega
  · simp only [decide_eq_false_iff_not]
    omega

/-- The digits of a number other than zero are not zero, whichever of the grids
they were found on, as zero is in none of the intervals. -/
theorem digits_shortest_ne_zero (tie : Tie) {mantissa : Nat} (nonzero : mantissa ≠ 0)
    (exponent : Int) : (shortest tie mantissa exponent).digits ≠ 0 := by
  rw [shortest, if_neg nonzero]
  apply Decimal.digits_trim_ne_zero
  cases search : (List.range 17).findSome? fun (extra : Nat) =>
      (Basin.ofParts mantissa exponent).onGrid? tie
        ((Basin.ofParts mantissa exponent).leadingExponent - extra) with
  | none =>
    simp only [Option.getD_none, Decimal.exactly]
    split
    · exact Nat.mul_ne_zero nonzero (Nat.pow_pos (by decide)).ne'
    · exact Nat.mul_ne_zero nonzero (Nat.pow_pos (by decide)).ne'
  | some found =>
    obtain ⟨extra, _, hit⟩ := List.exists_of_findSome?_eq_some search
    simp only [Option.getD_some]
    obtain ⟨digits, power⟩ := found
    rintro rfl
    exact Bool.false_ne_true
      ((Basin.contains_zero nonzero exponent power).symm.trans (Basin.contains_of_onGrid? hit))

/-- Only zero has no digits, and it has no exponent then. So no zero is written
with one. -/
theorem exponent_shortest (tie : Tie) (mantissa : Nat) (exponent : Int)
    (zero : (shortest tie mantissa exponent).digits = 0) :
    (shortest tie mantissa exponent).exponent = 0 := by
  by_cases nothing : mantissa = 0
  · rw [shortest, if_pos nothing]
  · exact absurd zero (digits_shortest_ne_zero tie nothing exponent)

/-- The digits of a number other than zero do not start with zero, by induction
on the number without its last digit. -/
theorem head?_toDigits {number : Nat} (nonzero : number ≠ 0) :
    (Nat.toDigits 10 number).head? ≠ some '0' := by
  induction number using Nat.strong_induction_on with
  | _ number inductionHypothesis =>
    rw [Nat.toDigits_eq_if (by decide)]
    split_ifs with single
    · have leading : ∀ digit < 10, digit ≠ 0 → Nat.digitChar digit ≠ '0' := by decide
      simpa using leading number single nonzero
    · have earlier := inductionHypothesis (number / 10) (by omega) (by omega)
      rwa [List.head?_append_of_ne_nil _ Nat.toDigits_ne_nil]

end Telemetry.Number

namespace Telemetry.Json

open Telemetry.Number

/-- Digits that may stand before a point. -/
def IsWhole (whole : List Char) : Prop :=
  whole = ['0'] ∨ whole ≠ [] ∧ whole.head? ≠ some '0' ∧ ∀ digit ∈ whole, digit.isDigit = true

/-- A whole part is read to its end. If it is a zero it is read alone, and
otherwise as far as there are digits. -/
theorem takeWhole_of_isWhole {whole rest : List Char} (isWhole : IsWhole whole)
    (ends : ∀ c ∈ rest.head?, c.isDigit = false) :
    takeWhole (whole ++ rest) = some (whole, rest) := by
  obtain rfl | ⟨nonempty, leading, digits⟩ := isWhole
  · rfl
  · cases whole with
    | nil => exact absurd rfl nonempty
    | cons c others =>
      rw [List.cons_append, takeWhole_cons, if_neg fun zero => leading (congrArg some zero)]
      exact run?_digits digits nonempty ends

/-- What may stand behind the whole part: nothing, or a point and digits. -/
def IsFraction (fraction : List Char) : Prop :=
  fraction = [] ∨
    ∃ digits, fraction = '.' :: digits ∧ digits ≠ [] ∧ ∀ digit ∈ digits, digit.isDigit = true

/-- What may stand behind the fraction: nothing, or a mark, a sign and
digits. -/
def IsPower (power : List Char) : Prop :=
  power = [] ∨ ∃ sign digits, power = 'e' :: sign :: digits ∧ (sign = '+' ∨ sign = '-') ∧
    digits ≠ [] ∧ ∀ digit ∈ digits, digit.isDigit = true

/-- An exponent begins with its mark, which ends the digits before it and is no
point. -/
theorem isDigit_head_power {power : List Char} (isPower : IsPower power) :
    ∀ c ∈ power.head?, c.isDigit = false ∧ c ≠ '.' := by
  obtain rfl | ⟨sign, digits, rfl, _⟩ := isPower
  · nofun
  · rintro _ ⟨⟩
    decide

/-- A fraction is read to its end, where the exponent begins or the text is
over. -/
theorem takeFraction_of_isFraction {fraction power : List Char} (isFraction : IsFraction fraction)
    (isPower : IsPower power) :
    ∃ digits, takeFraction (fraction ++ power) = some (digits, power) := by
  have first := isDigit_head_power isPower
  obtain rfl | ⟨digits, rfl, nonempty, all⟩ := isFraction
  · refine ⟨[], ?_⟩
    cases power with
    | nil => rfl
    | cons c others => rw [List.nil_append, takeFraction_cons, if_neg (first c rfl).2]
  · refine ⟨digits, ?_⟩
    rw [List.cons_append, takeFraction_cons, if_pos rfl]
    exact run?_digits all nonempty fun c head => (first c head).1

/-- An exponent is read to its end. -/
theorem takePower_of_isPower {power : List Char} (isPower : IsPower power) :
    ∃ raised, takePower power = some (raised, []) := by
  obtain rfl | ⟨sign, digits, rfl, isSign, nonempty, all⟩ := isPower
  · exact ⟨none, rfl⟩
  · have run : run? (digits ++ []) = some (digits, []) := run?_digits all nonempty nofun
    rw [List.append_nil] at run
    obtain rfl | rfl := isSign
    · exact ⟨some (false, digits), by rw [takePower_cons, if_pos (.inl rfl)]; simp [takeSign, run]⟩
    · exact ⟨some (true, digits), by rw [takePower_cons, if_pos (.inl rfl)]; simp [takeSign, run]⟩

/-- Three such parts make a literal. Each is read to where the next one begins,
so the reader arrives at the end of the text. -/
theorem Literal.unsigned?_of_parts (negative : Bool) {whole fraction power : List Char}
    (isWhole : IsWhole whole) (isFraction : IsFraction fraction) (isPower : IsPower power) :
    ∃ literal, unsigned? negative (whole ++ (fraction ++ power)) = some (literal, []) := by
  have ends : ∀ c ∈ (fraction ++ power).head?, c.isDigit = false := by
    obtain rfl | ⟨digits, rfl, _⟩ := isFraction
    · exact fun c head => (isDigit_head_power isPower c head).1
    · rintro _ ⟨⟩
      decide
  obtain ⟨digits, second⟩ := takeFraction_of_isFraction isFraction isPower
  obtain ⟨raised, third⟩ := takePower_of_isPower isPower
  refine ⟨⟨negative, whole, digits, raised⟩, ?_⟩
  simp only [unsigned?, Option.bind_eq_bind, takeWhole_of_isWhole isWhole ends, Option.bind_some,
    second, third, Option.pure_def]

/-- The text is made of such parts. -/
def InParts (text : List Char) : Prop :=
  ∃ whole fraction power, text = whole ++ (fraction ++ power) ∧
    IsWhole whole ∧ IsFraction fraction ∧ IsPower power

/-- The decimal digits of a number are digits to the reader. -/
theorem isDigit_toDigits (number : Nat) : ∀ c ∈ Nat.toDigits 10 number, c.isDigit = true :=
  fun _ member => Nat.isDigit_of_mem_toDigits (by decide) (by decide) member

/-- With an exponent, one digit stands before the point. The others, if there
are any, make the fraction. -/
theorem inParts_withExponent (decimal : Decimal) (leading : Int) :
    InParts (withExponent decimal leading).toList := by
  have digits := isDigit_toDigits decimal.digits
  have isPower : IsPower ('e' :: (if 0 ≤ leading then '+' else '-') ::
      Nat.toDigits 10 leading.natAbs) := by
    refine .inr ⟨_, _, rfl, ?_, Nat.toDigits_ne_nil, isDigit_toDigits _⟩
    split <;> simp
  have isWhole {digit : Char} (isDigit : digit.isDigit = true) : IsWhole [digit] := by
    by_cases zero : digit = '0'
    · exact .inl (by rw [zero])
    · exact .inr ⟨List.cons_ne_nil digit [], by simpa using zero, by simpa using isDigit⟩
  cases shown : Nat.toDigits 10 decimal.digits with
  | nil => exact absurd shown Nat.toDigits_ne_nil
  | cons digit others =>
    rw [shown] at digits
    have first := isWhole (digits digit List.mem_cons_self)
    cases others with
    | nil =>
      refine ⟨[digit], [], _, ?_, first, .inl rfl, isPower⟩
      simp only [withExponent, shown, String.toList_ofList]
      split <;> rfl
    | cons next others =>
      refine ⟨[digit], '.' :: next :: others, _, ?_, first, .inr ⟨_, rfl, List.cons_ne_nil _ _, ?_⟩,
        isPower⟩
      · simp only [withExponent, shown, String.toList_ofList]
        split <;> simp
      · exact fun c member => digits c (List.mem_cons_of_mem _ member)

/-- Without one, the point stands behind, inside or before the digits. Where it
stands before them a zero is written in front, and no other zero leads. -/
theorem inParts_positional {decimal : Decimal} (zero : decimal.digits = 0 → decimal.exponent = 0) :
    InParts (positional true decimal).toList := by
  have digits := isDigit_toDigits decimal.digits
  unfold positional
  simp only [↓reduceIte]
  -- In the first case the digits may be those of zero; in the others the exponent is not zero.
  split_ifs with large inside
  · refine ⟨Nat.toDigits 10 decimal.digits ++ List.replicate decimal.exponent.toNat '0', ['.', '0'],
      [], ?_, ?_, .inr ⟨['0'], rfl, List.cons_ne_nil _ _, by simp⟩, .inl rfl⟩
    · rw [String.toList_ofList, List.append_nil]
    · by_cases nothing : decimal.digits = 0
      · rw [nothing, zero nothing]
        exact .inl rfl
      · refine .inr ⟨?_, ?_, ?_⟩
        · exact List.append_ne_nil_of_left_ne_nil Nat.toDigits_ne_nil _
        · rw [List.head?_append_of_ne_nil _ Nat.toDigits_ne_nil]
          exact head?_toDigits nothing
        · intro c member
          obtain digit | trailing := List.mem_append.mp member
          · exact digits c digit
          · rw [List.eq_of_mem_replicate trailing]
            decide
  · have nonzero : decimal.digits ≠ 0 := fun nothing => large (zero nothing).ge
    have before : 0 < (Nat.toDigits 10 decimal.digits).length - (-decimal.exponent).toNat := by
      omega
    refine ⟨_, _, [], by rw [String.toList_ofList, List.append_nil], .inr ⟨?_, ?_, ?_⟩,
      .inr ⟨_, rfl, ?_, ?_⟩, .inl rfl⟩
    · simp [before.ne']
    · rw [List.head?_take, if_neg before.ne']
      exact head?_toDigits nonzero
    · exact fun c member => digits c (List.mem_of_mem_take member)
    · rw [Ne, List.drop_eq_nil_iff]
      omega
    · exact fun c member => digits c (List.mem_of_mem_drop member)
  · refine ⟨['0'], _, [], by rw [String.toList_ofList, List.append_nil]; rfl, .inl rfl,
      .inr ⟨_, rfl, ?_, ?_⟩, .inl rfl⟩
    · exact List.append_ne_nil_of_right_ne_nil _ Nat.toDigits_ne_nil
    · intro c member
      obtain leading | digit := List.mem_append.mp member
      · rw [List.eq_of_mem_replicate leading]
        decide
      · exact digits c digit

/-- A decimal is laid out as such parts, whether it gets an exponent or not. -/
theorem inParts_layout {decimal : Decimal} (zero : decimal.digits = 0 → decimal.exponent = 0) :
    InParts (numberStyle.layout decimal).toList := by
  unfold Style.layout
  simp only
  split
  · exact inParts_withExponent decimal _
  · exact inParts_positional zero

/-- A finite number is written as a literal and nothing else, a sign in front
included. -/
theorem take?_render {x : Float} (finite : x.isFinite = true) :
    ∃ literal, Literal.take? (numberStyle.render x).toList = some (literal, []) := by
  obtain ⟨parts, read, _⟩ := value_eq_parts finite
  obtain ⟨whole, fraction, power, layout, isWhole, isFraction, isPower⟩ :=
    inParts_layout (exponent_shortest numberStyle.tie parts.mantissa parts.exponent)
  obtain ⟨literal, taken⟩ :=
    Literal.unsigned?_of_parts parts.negative isWhole isFraction isPower
  rw [← layout] at taken
  refine ⟨literal, ?_⟩
  simp only [Style.render, read]
  split_ifs with negative
  · rw [negative] at taken
    rw [String.toList_append]
    exact (Literal.take?_minus _).trans taken
  · obtain ⟨c, others, start, digit⟩ := Literal.exists_digit taken
    have plain : c ≠ '-' := by
      rintro rfl
      exact absurd digit (by decide)
    rw [Bool.not_eq_true] at negative
    rw [negative, start] at taken
    rw [start, Literal.take?_of_ne plain]
    exact taken

/-- A reading is written as a number literal, or as null. What is not finite has
no literal and is the second case. -/
theorem grammatical_ofFloat (x : Float) : (ofFloat x).Grammatical := by
  unfold ofFloat
  split_ifs with finite
  · obtain ⟨literal, taken⟩ := take?_render finite
    exact .number taken
  · exact .null

end Telemetry.Json
