/-!
# Results that may be undefined

A formula over readings yields a number or says why it has none. A number built
by `ofFloat` is finite; formulas supplied from outside may also hand over a raw
number, and `normalize` brings it into line.
-/
namespace Telemetry

/-- Why a formula yields no number. -/
inductive Undefined where
  | divisionByZero
  | negativeRoot
  | missingInput
  | nonFinite
deriving DecidableEq, Repr

/-- The reason in words. -/
def Undefined.reason : Undefined → String
  | divisionByZero => "division by zero"
  | negativeRoot => "square root of a negative number"
  | missingInput => "missing input"
  | nonFinite => "non-finite result"

/-- The reason as it is tagged in data. -/
def Undefined.tag : Undefined → String
  | divisionByZero => "division_by_zero"
  | negativeRoot => "negative_sqrt"
  | missingInput => "missing_input"
  | nonFinite => "non_finite"

/-- Every reason. -/
def Undefined.all : List Undefined := [divisionByZero, negativeRoot, missingInput, nonFinite]

/-- The reason with a tag, if there is one. -/
def Undefined.ofTag? (tag : String) : Option Undefined := all.find? fun why => why.tag = tag

/-- The result of a formula. -/
inductive Value where
  | number (value : Float)
  | undefined (why : Undefined)

namespace Value

/-- A finite number as it is; NaN and the infinities are undefined. -/
def ofFloat (x : Float) : Value :=
  if x.isFinite then number x else undefined .nonFinite

/-- A reading that may be absent. -/
def ofOption : Option Float → Value
  | some x => ofFloat x
  | none => undefined .missingInput

/-- The number, if the value is one. -/
def number? : Value → Option Float
  | number x => some x
  | undefined _ => none

/-- The reason, if the value is undefined. -/
def undefined? : Value → Option Undefined
  | number _ => none
  | undefined why => some why

/-- Whether the value is a number. -/
def isNumber (value : Value) : Bool := value.number?.isSome

/-- Replace a number that is not finite. -/
def normalize : Value → Value
  | number x => ofFloat x
  | undefined why => undefined why

end Value

end Telemetry
