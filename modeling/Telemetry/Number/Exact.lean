/-!
# The exact value of a finite number

Readings are 64-bit floating-point numbers. A finite one is a whole number times
a power of two; `Parts` is that pair, read off the bit pattern without rounding,
so that questions about digits and halves become questions about naturals.

Two operations on readings rest on it or stand beside it: rounding to the
nearest whole number with halves going away from zero, and clamping between two
bounds. Neither invents a value for NaN or an infinity: both hand such a number
on, and callers that must not see one refuse it first.
-/
namespace Telemetry.Number

/-- A finite number, exactly `mantissa * 2 ^ exponent`. The sign is kept apart
so that the two zeros stay different. -/
structure Parts where
  negative : Bool
  mantissa : Nat
  exponent : Int
deriving DecidableEq, Repr

/-- The sign bit, also of a zero, an infinity or NaN. -/
def isNegative (x : Float) : Bool := decide (Nat.pow 2 63 ≤ x.toBits.toNat)

/-- Read the fields of the bit pattern. NaN and the infinities, which fill the
exponent field with ones, have no parts. A zero exponent field marks a number
without the implicit leading one. -/
def Parts.ofFloat? (x : Float) : Option Parts :=
  let bits : Nat := x.toBits.toNat
  let fraction : Nat := bits % Nat.pow 2 52
  let biased : Nat := bits / Nat.pow 2 52 % Nat.pow 2 11
  if biased = 2047 then none
  else if biased = 0 then some ⟨isNegative x, fraction, -1074⟩
  else some ⟨isNegative x, Nat.pow 2 52 + fraction, (biased : Int) - 1075⟩

/-- The nearest whole number, a half going away from zero. The sign survives, so
a small negative number becomes negative zero. A number whose exponent is not
negative is whole already. -/
def roundHalfAway (x : Float) : Float :=
  match Parts.ofFloat? x with
  | none => x
  | some parts =>
    if 0 ≤ parts.exponent then x
    else
      let unit := Nat.pow 2 (-parts.exponent).toNat
      let whole := Float.ofNat ((2 * parts.mantissa + unit) / (2 * unit))
      if parts.negative then -whole else whole

/-- The bound that `x` exceeds, or `x` itself. NaN exceeds nothing. -/
def clamp (low high x : Float) : Float :=
  if x < low then low else if high < x then high else x

/-- `base ^ count` by squaring, from the lowest binary digit of `count` up. The
order of the multiplications matters, because each one rounds. `steps` bounds
the number of binary digits. -/
def squareAndMultiply (steps : Nat) (product base : Float) (count : Nat) : Float :=
  match steps with
  | 0 => product
  | rest + 1 =>
    if count = 0 then product
    else
      squareAndMultiply rest (if count % 2 = 1 then product * base else product)
        (base * base) (count / 2)

/-- Ten to the power `places`, rounded at every multiplication. -/
def tenTo (places : Nat) : Float :=
  squareAndMultiply (places.log2 + 1) 1 10 places

/-- Round to `places` decimals: scale, round with halves away from zero, scale
back. A number that is too large to scale is returned as it is. -/
def roundTo (places : Nat) (x : Float) : Float :=
  let scale := tenTo places
  let scaled := roundHalfAway (x * scale)
  if scaled.isFinite then scaled / scale else x

end Telemetry.Number
