import Telemetry.Metering.Family
import Telemetry.Span

/-!
# Histograms of durations

A histogram counts durations in cumulative buckets: the bucket with bound `b`
counts every duration of at most `b` microseconds. It also keeps the number of
durations and their sum. All counts wrap at the size of a 64-bit word.
-/
namespace Telemetry.Metering

/-- The bounds of the buckets in microseconds, from ten microseconds to a tenth
of a second. -/
def bucketBounds : List UInt64 := [10, 50, 100, 500, 1000, 5000, 10000, 50000, 100000]

/-- Counts of durations. There is one bucket for each bound. -/
structure Histogram where
  count : UInt64 := 0
  sum : UInt64 := 0
  buckets : List UInt64 := bucketBounds.map fun _ => 0

/-- Count a duration. -/
def Histogram.observe (histogram : Histogram) (span : Span) : Histogram where
  count := histogram.count + 1
  sum := histogram.sum + span.micros
  buckets := List.zipWith (fun bound bucket => if span.micros ≤ bound then bucket + 1 else bucket)
    bucketBounds histogram.buckets

/-- A family of histograms. -/
abbrev Histograms := Family Histogram

namespace Histograms

/-- Count a duration under a set of labels. -/
def observe (histograms : Histograms) (labels : List Label) (span : Span) : Histograms :=
  histograms.update labels {} fun histogram => histogram.observe span

/-- How many durations were counted under a set of labels. -/
def count (histograms : Histograms) (labels : List Label) : UInt64 :=
  ((histograms.get? labels).map Histogram.count).getD 0

/-- The line of one bucket; its bound is written as a last label. -/
def bucketLine (name : String) (key : Key) (bound : String) (count : UInt64) : String :=
  let labels := if key.isEmpty then "" else key.text ++ ","
  name ++ "_bucket\x7b" ++ labels ++ "le=\"" ++ bound ++ "\"\x7d " ++ toString count.toNat

/-- The rows of one histogram: its buckets, all durations, their sum and
number. -/
def seriesRows (name : String) (key : Key) (histogram : Histogram) : List String :=
  List.zipWith (fun bound bucket => bucketLine name key (toString bound.toNat) bucket)
      bucketBounds histogram.buckets ++
    [bucketLine name key "+Inf" histogram.count,
      key.series (name ++ "_sum") ++ " " ++ toString histogram.sum.toNat,
      key.series (name ++ "_count") ++ " " ++ toString histogram.count.toNat]

/-- How many rows a histogram has. -/
def seriesHeight : Nat := bucketBounds.length + 3

/-- The lines of a family of histograms. -/
def lines (histograms : Histograms) (name : String) : List String :=
  Family.lines histograms name "histogram" seriesHeight (seriesRows name)

end Histograms

end Telemetry.Metering
