import Telemetry.Number.Shortest

/-!
# Reading decimal literals

A literal is an optional sign, digits with at most one point among or around
them, and an optional exponent; at least one digit must stand before the
exponent. It names a decimal, and the decimal is read as the nearest number,
ties to even. Decimals beyond the range become an infinity or zero without their
power of ten ever being formed, so a literal costs no more than its length.
-/
namespace Telemetry.Number

/-- The longest run of decimal digits at the front, and what follows it. -/
def spanDigits (input : List Char) : List Char × List Char := input.span Char.isDigit

/-- The value of a run of decimal digits. -/
def digitsValue (digits : List Char) : Nat :=
  digits.foldl (fun value digit => 10 * value + (digit.toNat - '0'.toNat)) 0

/-- The nearest number to a decimal. Past the largest and below the smallest
leading exponent the result no longer depends on the digits. -/
def Decimal.toFloat (decimal : Decimal) : Float :=
  if decimal.digits = 0 then 0
  else
    let leading := ((Nat.toDigits 10 decimal.digits).length : Int) - 1 + decimal.exponent
    if 308 < leading then 1.0 / 0.0
    else if leading < -326 then 0
    else Float.ofScientific decimal.digits (decide (decimal.exponent < 0)) decimal.exponent.natAbs

/-- A sign, if there is one: whether it is a minus, and the rest. -/
def takeSign : List Char → Bool × List Char
  | '-' :: rest => (true, rest)
  | '+' :: rest => (false, rest)
  | input => (false, input)

/-- The exponent part, if the input starts with one, and the rest. A mark
without digits is not an exponent part, and then the whole is no literal. -/
def takeExponent : List Char → Option (Int × List Char)
  | mark :: input =>
    if mark = 'e' ∨ mark = 'E' then
      let (negative, unsigned) := takeSign input
      let (digits, rest) := spanDigits unsigned
      if digits.isEmpty then none
      else
        let value : Int := digitsValue digits
        some (if negative then -value else value, rest)
    else some (0, mark :: input)
  | [] => some (0, [])

/-- An unsigned decimal literal that fills the whole input. -/
def readDecimal? (input : List Char) : Option Decimal :=
  let (whole, afterWhole) := spanDigits input
  let (fraction, afterFraction) :=
    match afterWhole with
    | '.' :: rest => spanDigits rest
    | rest => ([], rest)
  if whole.isEmpty ∧ fraction.isEmpty then none
  else
    match takeExponent afterFraction with
    | some (exponent, []) =>
      some ⟨digitsValue (whole ++ fraction), exponent - fraction.length⟩
    | _ => none

/-- A decimal literal with an optional sign. The result is infinite when the
literal is beyond the range. -/
def readLiteral? (input : List Char) : Option Float :=
  let (negative, unsigned) := takeSign input
  (readDecimal? unsigned).map fun decimal =>
    if negative then -decimal.toFloat else decimal.toFloat

/-- Read a number as messages and reports show it, or any decimal literal. -/
def ofText? (source : String) : Option Float :=
  if source = "NaN" then some (0.0 / 0.0)
  else if source = "inf" then some (1.0 / 0.0)
  else if source = "-inf" then some (-1.0 / 0.0)
  else readLiteral? source.toList

end Telemetry.Number
