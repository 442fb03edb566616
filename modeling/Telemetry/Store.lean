import Std.Data.HashMap
import Telemetry.Channel
import Telemetry.Snapshot
import Telemetry.Source

/-!
# The channel store

The store owns the live channels in the order of their registration, an index
from name to position, and the number of ticks made. A tick moves every channel
once, taking one draw per channel in registration order. Reads and writes by
name go through the index; snapshots are made from the channels themselves.
-/
namespace Telemetry

/-- The live channels. -/
structure Store where
  channels : Array Channel := #[]
  /-- The position of each registered name. -/
  index : Std.HashMap String Nat := {}
  ticks : Nat := 0

namespace Store

/-- Whether a channel of this name is registered. -/
def contains (store : Store) (name : String) : Bool := store.index.contains name

/-- Register a channel. The specification is checked before the name. -/
def register (store : Store) (spec : ChannelSpec) : Except Fault Store := do
  spec.check
  if store.contains spec.name then throw (.alreadyRegistered .channel spec.name)
  return { store with
    channels := store.channels.push (.ofSpec spec)
    index := store.index.insert spec.name store.channels.size }

/-- One step of each channel in turn, one draw each. -/
def walk {ρ : Type} [Source ρ] : List Channel → ρ → List Channel × ρ
  | [], source => ([], source)
  | channel :: rest, source =>
    let (draw, after) := Source.draw source
    let (moved, final) := walk rest after
    (channel.step draw :: moved, final)

/-- Move every channel and count the tick. -/
def tick {ρ : Type} [Source ρ] (store : Store) (source : ρ) : Store × ρ :=
  let (moved, after) := walk store.channels.toList source
  ({ store with channels := moved.toArray, ticks := store.ticks + 1 }, after)

/-- The current readings. -/
def snapshot (store : Store) : Snapshot :=
  .ofPairs store.ticks (store.channels.toList.map fun channel => (channel.name, channel.value))

/-- The channel of this name, by way of the index. -/
def channel? (store : Store) (name : String) : Option Channel :=
  store.index[name]?.bind fun position => store.channels[position]?

/-- The channel of this name. -/
def channel (store : Store) (name : String) : Except Fault Channel :=
  match store.channel? name with
  | some channel => .ok channel
  | none => .error (.notRegistered .channel name)

/-- The reading of the channel of this name. -/
def value (store : Store) (name : String) : Except Fault Float :=
  (store.channel name).map Channel.value

/-- Overwrite a reading, clamped into its channel's bounds, and give the stored
value. The value is checked before the name. -/
def setValue (store : Store) (name : String) (value : Float) : Except Fault (Float × Store) := do
  ensureFinite .override value
  match store.index[name]? with
  | none => throw (.notRegistered .channel name)
  | some position =>
    match store.channels[position]? with
    | none => throw (.notRegistered .channel name)
    | some channel =>
      let placed := channel.place value
      return (placed.value, { store with channels := store.channels.setIfInBounds position placed })

/-- The names in registration order. -/
def names (store : Store) : List String := store.channels.toList.map Channel.name

/-- How many channels are registered. -/
def size (store : Store) : Nat := store.channels.size

end Store

end Telemetry
