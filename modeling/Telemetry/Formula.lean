import Telemetry.Arithmetic
import Telemetry.Derivation
import Telemetry.Fault
import Telemetry.RunningMean

/-!
# Built-in formulas

The shapes of derivation that a configuration can name: a linear function of one
channel, a scaled quotient of two, the running average of one, and a calculator
operation over one or two channels. Each states which channels it reads, when it
is well formed, and what it computes.
-/
namespace Telemetry

/-- A shape of derivation. -/
inductive Formula where
  /-- `offset + scale * channel` -/
  | linear (channel : String) (scale offset : Float)
  /-- `numerator / denominator * scale` -/
  | ratio (numerator denominator : String) (scale : Float)
  /-- The mean of all readings so far. -/
  | runningAverage (channel : String)
  /-- An operation; a root needs no right operand. -/
  | calculator (operation : Operation) (left : String) (right : Option String)

namespace Formula

/-- The channels a formula reads, in the order in which it names them. -/
def dependsOn : Formula → List String
  | linear channel _ _ => [channel]
  | ratio numerator denominator _ => [numerator, denominator]
  | runningAverage channel => [channel]
  | calculator _ left right => left :: right.toList

/-- Refuse constants that are not finite and operations without an operand. -/
def check (name : String) : Formula → Except Fault Unit
  | linear _ scale offset =>
    if ¬ scale.isFinite then .error (.coefficientNotFinite name .scale)
    else if ¬ offset.isFinite then .error (.coefficientNotFinite name .offset)
    else .ok ()
  | ratio _ _ scale =>
    if scale.isFinite then .ok () else .error (.coefficientNotFinite name .scale)
  | runningAverage _ => .ok ()
  | calculator operation _ right =>
    if right.isNone ∧ ¬ operation.isUnary then .error (.operandMissing name operation)
    else .ok ()

/-- What a formula computes from what it can see. -/
def compute : Formula → Context → Value
  | linear channel scale offset, context =>
    .ofOption ((context.reading channel).map fun reading => offset + scale * reading)
  | ratio numerator denominator scale, context =>
    match context.reading numerator, context.reading denominator with
    | some above, some below =>
      match Operation.divide.evaluate above below with
      | .number quotient => .ofFloat (quotient * scale)
      | .undefined why => .undefined why
    | _, _ => .undefined .missingInput
  | runningAverage channel, context =>
    match context.reading channel with
    | some reading =>
      if reading.isFinite then
        .ofFloat (Statistic.next (context.lastNumber.getD 0) (context.samples + 1) reading)
      else .undefined .nonFinite
    | none => .undefined .missingInput
  | calculator operation left right, context =>
    match context.reading left with
    | none => .undefined .missingInput
    | some first =>
      match right with
      | some name =>
        match context.reading name with
        | some second => operation.evaluate first second
        | none => .undefined .missingInput
      | none => if operation.isUnary then operation.evaluate first 0 else .undefined .missingInput

end Formula

end Telemetry
