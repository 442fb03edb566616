import Telemetry.Json.Basic
import Telemetry.Number.Literal
import Telemetry.Number.Style

/-!
# Numbers in JSON documents

Readings are written with the fewest digits that read back, positionally while
the leading exponent lies between -5 and 15 and then always with a decimal, and
with an exponent beyond. NaN and the infinities have no literal and become null.

Reading favours speed over the last digit. As many leading digits as fit a
64-bit word are taken as a whole number, which is then multiplied or divided
once by a power of ten; each of the two steps rounds. A literal past the largest
number is refused.
-/
namespace Telemetry.Json

open Telemetry.Number

/-- How readings are written in documents. -/
def numberStyle : Style where
  tie := .toEven
  scientific := fun leading => decide (leading < -5 ∨ 15 < leading)
  pointZero := true
  notANumber := "null"
  infinity := "null"
  negativeInfinity := "null"

/-- A reading, or null. -/
def ofFloat (x : Float) : Json :=
  if x.isFinite then .number (numberStyle.render x).toList else .null

/-- A count. -/
def ofNat (n : Nat) : Json := .number (Nat.toDigits 10 n)

/-- The parts of a number literal. -/
structure Literal where
  negative : Bool
  whole : List Char
  fraction : List Char
  /-- Sign and digits of the exponent, if there is one. -/
  exponent : Option (Bool × List Char)

/-- The whole part: a lone zero, or digits that do not start with one. -/
def takeWhole : List Char → Option (List Char × List Char)
  | '0' :: rest => some (['0'], rest)
  | input =>
    let (digits, rest) := spanDigits input
    if digits.isEmpty then none else some (digits, rest)

/-- A point must be followed by digits. -/
def takeFraction : List Char → Option (List Char × List Char)
  | '.' :: input =>
    let (digits, rest) := spanDigits input
    if digits.isEmpty then none else some (digits, rest)
  | input => some ([], input)

/-- An exponent mark must be followed by digits, after an optional sign. -/
def takePower : List Char → Option (Option (Bool × List Char) × List Char)
  | mark :: input =>
    if mark = 'e' ∨ mark = 'E' then
      let (negative, unsigned) := takeSign input
      let (digits, rest) := spanDigits unsigned
      if digits.isEmpty then none else some (some (negative, digits), rest)
    else some (none, mark :: input)
  | [] => some (none, [])

/-- The number literal at the front of the input, and what follows it. -/
def Literal.take? (input : List Char) : Option (Literal × List Char) := do
  let (negative, unsigned) :=
    match input with
    | '-' :: rest => (true, rest)
    | rest => (false, rest)
  let (whole, afterWhole) ← takeWhole unsigned
  let (fraction, afterFraction) ← takeFraction afterWhole
  let (exponent, rest) ← takePower afterFraction
  return (⟨negative, whole, fraction, exponent⟩, rest)

/-- Digits gathered into a whole number while it fits a 64-bit word, and how
many digits were left over. -/
def gather : (significand : Nat) → List Char → Nat × Nat
  | significand, [] => (significand, 0)
  | significand, digit :: rest =>
    let longer := 10 * significand + (digit.toNat - '0'.toNat)
    if longer < UInt64.size then gather longer rest else (significand, rest.length + 1)

/-- Scale by a power of ten in one rounding step. Below the table of powers the
number is first brought up by the largest of them. -/
def scaleByTen (x : Float) (exponent : Int) : Option Float :=
  if 0 ≤ exponent then
    if x == 0 then some x
    else if 308 < exponent then none
    else
      let scaled := x * Float.ofScientific 1 false exponent.toNat
      if scaled.isFinite then some scaled else none
  else if -308 ≤ exponent then some (x / Float.ofScientific 1 false (-exponent).toNat)
  else if x == 0 then some x
  else scaleByTen (x / Float.ofScientific 1 false 308) (exponent + 308)
termination_by (-exponent).toNat
decreasing_by omega

/-- The largest exponent that is read as such. -/
def greatestPower : Nat := 2147483647

/-- The magnitude of a literal. -/
def Literal.magnitude? (literal : Literal) : Option Float :=
  let (whole, dropped) := gather 0 literal.whole
  let (significand, ignored) := gather whole literal.fraction
  let shift : Int := (dropped : Int) - ((literal.fraction.length : Int) - ignored)
  match literal.exponent with
  | none => scaleByTen (Float.ofNat significand) shift
  | some (negative, digits) =>
    let power := digitsValue digits
    if greatestPower < power then
      if significand ≠ 0 ∧ ¬ negative then none else some 0
    else
      scaleByTen (Float.ofNat significand) (if negative then shift - power else shift + power)

/-- The number that a literal names, if it is within range. -/
def Literal.value? (literal : Literal) : Option Float :=
  literal.magnitude?.map fun magnitude => if literal.negative then -magnitude else magnitude

/-- The number of a document that is one. -/
def float? : Json → Option Float
  | .number literal =>
    match Literal.take? literal with
    | some (parts, []) => parts.value?
    | _ => none
  | _ => none

end Telemetry.Json
