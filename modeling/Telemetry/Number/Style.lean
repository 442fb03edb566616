import Telemetry.Number.Shortest

/-!
# How numbers are written

The digits of a number are settled by `shortest`; a `Style` settles the rest:
when an exponent is used, whether a whole number keeps a decimal, where ties go,
and what stands for NaN and the infinities. One style serves messages, gauges
and reports, which never use an exponent. Data formats bring a style of their
own.
-/
namespace Telemetry.Number

/-- The decisions that turn a selected decimal into text. -/
structure Style where
  tie : Tie
  /-- Whether a number with this leading exponent is written with an
  exponent. -/
  scientific : Int → Bool
  /-- Whether a whole number ends in `.0`. -/
  pointZero : Bool
  notANumber : String
  infinity : String
  negativeInfinity : String

/-- Digits in positional notation: the point stands behind, inside or before
them. -/
def positional (pointZero : Bool) (decimal : Decimal) : String :=
  let digits := Nat.toDigits 10 decimal.digits
  if 0 ≤ decimal.exponent then
    let whole := digits ++ List.replicate decimal.exponent.toNat '0'
    String.ofList (if pointZero then whole ++ ['.', '0'] else whole)
  else
    let places := (-decimal.exponent).toNat
    if places < digits.length then
      let whole := digits.length - places
      String.ofList (digits.take whole ++ '.' :: digits.drop whole)
    else
      String.ofList ('0' :: '.' :: (List.replicate (places - digits.length) '0' ++ digits))

/-- One digit before the point, and the exponent with its sign. -/
def withExponent (decimal : Decimal) (leading : Int) : String :=
  let sign := if 0 ≤ leading then ['+'] else ['-']
  let exponent := 'e' :: sign ++ Nat.toDigits 10 leading.natAbs
  match Nat.toDigits 10 decimal.digits with
  | [] => String.ofList exponent
  | [digit] => String.ofList (digit :: exponent)
  | digit :: rest => String.ofList (digit :: '.' :: rest ++ exponent)

/-- The text of a decimal in a style. -/
def Style.layout (style : Style) (decimal : Decimal) : String :=
  let leading := ((Nat.toDigits 10 decimal.digits).length : Int) - 1 + decimal.exponent
  if style.scientific leading then withExponent decimal leading
  else positional style.pointZero decimal

/-- The text of a number in a style. The sign of zero is written. -/
def Style.render (style : Style) (x : Float) : String :=
  match Parts.ofFloat? x with
  | some parts =>
    let text := style.layout (shortest style.tie parts.mantissa parts.exponent)
    if parts.negative then "-" ++ text else text
  | none =>
    if x.isNaN then style.notANumber
    else if isNegative x then style.negativeInfinity else style.infinity

/-- Messages, gauges and reports: never an exponent, no decimal on whole
numbers, ties upward. -/
def plainStyle : Style where
  tie := .up
  scientific := fun _ => false
  pointZero := false
  notANumber := "NaN"
  infinity := "inf"
  negativeInfinity := "-inf"

/-- A number as messages and reports show it. -/
def text (x : Float) : String := plainStyle.render x

end Telemetry.Number
