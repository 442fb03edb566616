import Telemetry.Fault

/-!
# Bounded channels

A channel is a reading that walks at random between two bounds. It is declared
by a `ChannelSpec` and, once the specification has been checked, lives on as a
`Channel`, of which only the value ever changes. Every write goes through
`place`, which clamps into the bounds, so the value cannot leave them; a step
that overflows is clamped like any other.
-/
namespace Telemetry

/-- What a channel is declared with. `maxStep` is the largest change per tick in
either direction. -/
structure ChannelSpec where
  name : String
  initial : Float
  lower : Float
  upper : Float
  maxStep : Float

/-- Refuse a specification that no channel can be built from. The checks come in
a fixed order, and the first that fails is reported. -/
def ChannelSpec.check (spec : ChannelSpec) : Except Fault Unit := do
  if spec.name.isEmpty then throw (.emptyName .channel)
  ensureFinite .initial spec.initial
  ensureFinite .lower spec.lower
  ensureFinite .upper spec.upper
  ensureFinite .maxStep spec.maxStep
  if spec.upper < spec.lower then throw (.boundsCrossed spec.name spec.lower spec.upper)
  if ¬ (spec.lower ≤ spec.initial ∧ spec.initial ≤ spec.upper) then
    throw (.initialOutside spec.name spec.initial spec.lower spec.upper)
  if spec.maxStep < 0 then throw (.negativeStep spec.name)

/-- A live channel. -/
structure Channel where
  name : String
  lower : Float
  upper : Float
  maxStep : Float
  value : Float

namespace Channel

/-- The channel that a checked specification declares, at its initial value. -/
def ofSpec (spec : ChannelSpec) : Channel :=
  ⟨spec.name, spec.lower, spec.upper, spec.maxStep, spec.initial⟩

/-- Overwrite the value, clamped into the bounds. -/
def place (channel : Channel) (value : Float) : Channel :=
  { channel with value := Number.clamp channel.lower channel.upper value }

/-- A draw as a step factor: NaN moves nothing, anything else is clamped to the
unit interval around zero. -/
def unitFactor (draw : Float) : Float :=
  if draw.isNaN then 0 else Number.clamp (-1) 1 draw

/-- One step of the walk. -/
def step (channel : Channel) (draw : Float) : Channel :=
  channel.place (channel.value + unitFactor draw * channel.maxStep)

end Channel

end Telemetry
