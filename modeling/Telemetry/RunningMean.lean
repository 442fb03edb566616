/-!
# Running means

A mean over a growing number of samples is kept as the pair of count and mean
and moved by `(x - mean) / count` for each sample, so no sum ever grows. The
recurrence only adds, subtracts and divides, and is stated for any number type
that can do so; readings use it with 64-bit numbers, where samples that are not
finite are left out.
-/
namespace Telemetry

/-- How many samples were seen, and their mean. -/
structure RunningMean (α : Type) where
  count : Nat
  mean : α
deriving Repr

namespace RunningMean

/-- The mean over `count` samples, from the mean over all but the last and the
last one. Without samples there is nothing to move. -/
def next {α : Type} [Add α] [Sub α] [Div α] (ofCount : Nat → α)
    (mean : α) (count : Nat) (sample : α) : α :=
  if count = 0 then mean else mean + (sample - mean) / ofCount count

/-- Take one more sample in. -/
def absorb {α : Type} [Add α] [Sub α] [Div α] (ofCount : Nat → α)
    (state : RunningMean α) (sample : α) : RunningMean α :=
  ⟨state.count + 1, next ofCount state.mean (state.count + 1) sample⟩

end RunningMean

/-- A running mean of readings. -/
abbrev Statistic := RunningMean Float

namespace Statistic

/-- No samples yet; the mean then reads zero. -/
def empty : Statistic := ⟨0, 0⟩

/-- The recurrence on readings. -/
def next (mean : Float) (count : Nat) (sample : Float) : Float :=
  RunningMean.next Float.ofNat mean count sample

/-- Take a sample in, unless it is not finite. -/
def push (state : Statistic) (sample : Float) : Statistic :=
  if sample.isFinite then state.absorb Float.ofNat sample else state

/-- Take samples in, one after another. -/
def extend (state : Statistic) (samples : List Float) : Statistic := samples.foldl push state

end Statistic

end Telemetry
