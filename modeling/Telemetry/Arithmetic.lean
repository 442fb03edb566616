import Telemetry.Operation
import Telemetry.Value

/-!
# Operations on readings

`Operation.evaluate` applies an operation to two readings. A zero divisor, of
either sign, and the root of a negative number are refused by name; any other
result that is not finite is undefined as such. Pairs of numbers, read as
complex numbers, are added and subtracted only.
-/
namespace Telemetry

/-- Apply an operation. The right operand of a root is not read. -/
def Operation.evaluate (operation : Operation) (left right : Float) : Value :=
  match operation with
  | .add => .ofFloat (left + right)
  | .subtract => .ofFloat (left - right)
  | .multiply => .ofFloat (left * right)
  | .divide => if right == 0 then .undefined .divisionByZero else .ofFloat (left / right)
  | .power => .ofFloat (Float.pow left right)
  | .sqrt => if left < 0 then .undefined .negativeRoot else .ofFloat left.sqrt

/-- A complex number. -/
structure Complex where
  re : Float
  im : Float

/-- Sum or difference by components; the other operations are not defined. -/
def Complex.apply? (operation : Operation) (left right : Complex) : Option Complex :=
  match operation with
  | .add => some ⟨left.re + right.re, left.im + right.im⟩
  | .subtract => some ⟨left.re - right.re, left.im - right.im⟩
  | _ => none

end Telemetry
