/-!
# Arithmetic operations by name and code

Six operations with stable codes from one to six. Five take two operands; the
square root uses its left operand only.
-/
namespace Telemetry

/-- An arithmetic operation on two readings. -/
inductive Operation where
  | add
  | subtract
  | multiply
  | divide
  | power
  | sqrt
deriving DecidableEq, Repr

namespace Operation

/-- Every operation, in the order of the codes. -/
def all : List Operation := [add, subtract, multiply, divide, power, sqrt]

/-- The stable number of an operation. -/
def code : Operation → Nat
  | add => 1
  | subtract => 2
  | multiply => 3
  | divide => 4
  | power => 5
  | sqrt => 6

/-- The operation with a code, if there is one. -/
def ofCode? (code : Nat) : Option Operation := all.find? fun operation => operation.code = code

/-- Whether only the left operand is read. -/
def isUnary : Operation → Bool
  | sqrt => true
  | _ => false

/-- The name used in configuration and data. -/
def name : Operation → String
  | add => "add"
  | subtract => "subtract"
  | multiply => "multiply"
  | divide => "divide"
  | power => "power"
  | sqrt => "sqrt"

/-- The operation with a name, if there is one. -/
def ofName? (name : String) : Option Operation :=
  all.find? fun operation => operation.name = name

/-- The name as it stands in messages. -/
def title : Operation → String
  | add => "Add"
  | subtract => "Subtract"
  | multiply => "Multiply"
  | divide => "Divide"
  | power => "Power"
  | sqrt => "Sqrt"

end Operation

end Telemetry
