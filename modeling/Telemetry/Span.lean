import Telemetry.Number.Exact

/-!
# Spans of time

A span is a whole number of seconds, which fits a 64-bit word, and a number of
nanoseconds below one second. Spans are measured by the caller; nothing here
reads a clock. As seconds a span is rounded twice, once for each of its two
parts; back from seconds it takes the nearest nanosecond, ties to even, if the
span fits.
-/
namespace Telemetry

/-- A span of time, never negative. -/
structure Span where
  seconds : UInt64
  nanos : Nat
  nanos_lt : nanos < 1000000000

namespace Span

/-- No time at all. -/
def zero : Span := ⟨0, 0, by decide⟩

/-- The span in seconds. -/
def toSeconds (span : Span) : Float :=
  span.seconds.toFloat + Float.ofNat span.nanos / 1000000000.0

/-- Whole microseconds, no more than a 64-bit word holds. -/
def micros (span : Span) : UInt64 :=
  UInt64.ofNat (min (span.seconds.toNat * 1000000 + span.nanos / 1000) (UInt64.size - 1))

/-- The quotient rounded to the nearest whole number, a half to the even one. -/
def roundHalfEven (dividend divisor : Nat) : Nat :=
  let quotient := dividend / divisor
  match compare (2 * (dividend % divisor)) divisor with
  | .lt => quotient
  | .gt => quotient + 1
  | .eq => if quotient % 2 = 0 then quotient else quotient + 1

/-- The span of a whole number of nanoseconds, if its seconds fit a word. -/
def ofNanos? (total : Nat) : Option Span :=
  if total / 1000000000 < UInt64.size then
    some ⟨UInt64.ofNat (total / 1000000000), total % 1000000000, Nat.mod_lt _ (by decide)⟩
  else none

/-- The nearest span to a number of seconds. A negative number, NaN, an infinity
and a number past the longest span have none; negative zero counts as zero. -/
def ofSeconds? (seconds : Float) : Option Span :=
  match Number.Parts.ofFloat? seconds with
  | none => none
  | some parts =>
    if parts.negative ∧ parts.mantissa ≠ 0 then none
    else
      let scaled := parts.mantissa * 1000000000 * Nat.pow 2 parts.exponent.toNat
      ofNanos? (roundHalfEven scaled (Nat.pow 2 (-parts.exponent).toNat))

end Span

end Telemetry
