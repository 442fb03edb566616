import Telemetry.Number.Exact

/-!
# The fewest decimal digits that read back

A reader of decimals takes every real number to the nearest floating-point
number, so each positive number owns an interval of reals: halfway to either
neighbour, with the ends included exactly when its mantissa is even. Any decimal
inside the interval names the number; the text of a reading is one with as few
digits as possible, and among those the nearest.

The search follows that sentence. For one digit, two digits and so on, the two
multiples of the digit grid around the value are tested against the interval in
exact natural arithmetic. The first grid with a hit wins and of two hits the
nearer; whether an exact tie goes up or to the even digit is left to the format
that asks. Seventeen digits always suffice for 64-bit numbers. Should no grid
hit, the exact decimal value is returned, so the answer is never a guess.
-/
namespace Telemetry.Number

/-- The number `digits * 10 ^ exponent`. -/
structure Decimal where
  digits : Nat
  exponent : Int
deriving DecidableEq, Repr

/-- Where an exact tie between two equally short decimals goes. -/
inductive Tie where
  | up
  | toEven
deriving DecidableEq, Repr

/-- The reals that round to one positive number: `low`, `value` and `high` over
the common denominator `unit`. -/
structure Basin where
  low : Nat
  value : Nat
  high : Nat
  unit : Nat
  closed : Bool

/-- Quarters of the last place suffice: the interval reaches half a place to
either side, except below a power of two, where the lower neighbour is only half
as far away. -/
def Basin.ofParts (mantissa : Nat) (exponent : Int) : Basin :=
  let narrow := mantissa = Nat.pow 2 52 ∧ -1074 < exponent
  let grow := Nat.pow 2 (exponent - 2).toNat
  { low := (4 * mantissa - if narrow then 1 else 2) * grow
    value := 4 * mantissa * grow
    high := (4 * mantissa + 2) * grow
    unit := Nat.pow 2 (2 - exponent).toNat
    closed := mantissa % 2 = 0 }

/-- Compare the decimal with both ends by cross-multiplication. -/
def Basin.contains (basin : Basin) (decimal : Decimal) : Bool :=
  let point := decimal.digits * Nat.pow 10 decimal.exponent.toNat * basin.unit
  let scale := Nat.pow 10 (-decimal.exponent).toNat
  if basin.closed then
    decide (basin.low * scale ≤ point ∧ point ≤ basin.high * scale)
  else
    decide (basin.low * scale < point ∧ point < basin.high * scale)

/-- How many places the value must be moved left until it reaches one. No value
needs more than 324 places. -/
def Basin.leadingPlaces (basin : Basin) : Nat :=
  ((List.range 324).find? fun places => basin.unit ≤ basin.value * Nat.pow 10 places).getD 324

/-- The exponent of the value's leading decimal digit: the length of its whole
part tells, once the value has one. -/
def Basin.leadingExponent (basin : Basin) : Int :=
  let places := basin.leadingPlaces
  let whole := basin.value * Nat.pow 10 places / basin.unit
  ((Nat.toDigits 10 whole).length : Int) - 1 - places

/-- The better of the value's two neighbours on the grid `10 ^ exponent`, if
either lies in the interval. -/
def Basin.onGrid? (basin : Basin) (tie : Tie) (exponent : Int) : Option Decimal :=
  let scaled := basin.value * Nat.pow 10 (-exponent).toNat
  let step := basin.unit * Nat.pow 10 exponent.toNat
  let below := scaled / step
  let lower : Decimal := ⟨below, exponent⟩
  let upper : Decimal := ⟨below + 1, exponent⟩
  match basin.contains lower, basin.contains upper with
  | true, false => some lower
  | false, true => some upper
  | false, false => none
  | true, true =>
    match compare (2 * scaled) ((2 * below + 1) * step) with
    | .lt => some lower
    | .gt => some upper
    | .eq =>
      match tie with
      | .up => some upper
      | .toEven => some (if below % 2 = 0 then lower else upper)

/-- Move trailing zeros of the digits into the exponent. -/
def Decimal.trim (decimal : Decimal) : Decimal :=
  if decimal.digits ≠ 0 ∧ decimal.digits % 10 = 0 then
    Decimal.trim ⟨decimal.digits / 10, decimal.exponent + 1⟩
  else decimal
termination_by decimal.digits
decreasing_by omega

/-- The exact decimal value of `mantissa * 2 ^ exponent`. -/
def Decimal.exactly (mantissa : Nat) (exponent : Int) : Decimal :=
  if 0 ≤ exponent then ⟨mantissa * Nat.pow 2 exponent.toNat, 0⟩
  else ⟨mantissa * Nat.pow 5 (-exponent).toNat, exponent⟩

/-- The shortest decimal that reads back as `mantissa * 2 ^ exponent`, without
trailing zeros. Zero, which has no leading digit, is its own decimal. -/
def shortest (tie : Tie) (mantissa : Nat) (exponent : Int) : Decimal :=
  if mantissa = 0 then ⟨0, 0⟩
  else
    let basin := Basin.ofParts mantissa exponent
    let leading := basin.leadingExponent
    let found := (List.range 17).findSome? fun (extra : Nat) => basin.onGrid? tie (leading - extra)
    (found.getD (Decimal.exactly mantissa exponent)).trim

end Telemetry.Number
