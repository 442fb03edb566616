import Telemetry.Proofs.FloatOrder
import Telemetry.Proofs.StoreIndex

/-!
# Readings stay within their bounds

A channel that passed its check has finite bounds in order and a reading between
them, and every later write goes through a clamp. What a clamp is given must not
be NaN, which it would hand on for ever. A draw is made finite before it is
used, a finite factor times a finite step is comparable even where it overflows,
and so is its sum with a finite reading; an infinity is clamped like any other
number. So no source of draws, whatever it yields, can drive a reading out of
its bounds or to NaN.

The walk is also run here with clamps that give up when their bounds are not in
order. On a store that calls can lead to, this walk never gives up, and it is
the walk of the store.
-/
namespace Telemetry

namespace Channel

/-- The bounds are finite and in order, the reading is finite and between them,
and the largest step is finite. -/
structure Bounded (channel : Channel) : Prop where
  lowerFinite : channel.lower.isFinite = true
  upperFinite : channel.upper.isFinite = true
  ordered : channel.lower ≤ channel.upper
  valueFinite : channel.value.isFinite = true
  above : channel.lower ≤ channel.value
  below : channel.value ≤ channel.upper
  stepFinite : channel.maxStep.isFinite = true

/-- A checked specification declares a bounded channel. Bounds that are finite
and not crossed are in order, because finite numbers can be compared. -/
theorem bounded_ofSpec {spec : ChannelSpec} (checked : spec.check = .ok ()) :
    (ofSpec spec).Bounded := by
  obtain ⟨_, initialFinite, lowerFinite, upperFinite, stepFinite, uncrossed, ⟨above, below⟩, _⟩ :=
    ChannelSpec.check_eq_ok_iff.mp checked
  have ordered : spec.lower ≤ spec.upper :=
    Number.le_of_not_lt (Number.isNaN_of_isFinite upperFinite)
      (Number.isNaN_of_isFinite lowerFinite) uncrossed
  exact ⟨lowerFinite, upperFinite, ordered, initialFinite, above, below, stepFinite⟩

/-- Writing a comparable number keeps a channel bounded. The clamp does this,
and nothing but the reading is written. -/
theorem bounded_place {channel : Channel} (bounded : channel.Bounded) {value : Float}
    (comparable : value.isNaN = false) : (channel.place value).Bounded := by
  obtain ⟨finite, above, below⟩ := Number.clamp_between bounded.lowerFinite bounded.upperFinite
    bounded.ordered comparable
  exact ⟨bounded.lowerFinite, bounded.upperFinite, bounded.ordered, finite, above, below,
    bounded.stepFinite⟩

/-- Every draw makes a finite factor, NaN and the infinities included. The
former is replaced by zero and the latter are clamped. -/
theorem isFinite_unitFactor (draw : Float) : (unitFactor draw).isFinite = true := by
  unfold unitFactor
  cases comparable : draw.isNaN with
  | true => exact (by decide : (0 : Float).isFinite = true)
  | false => exact (Number.clamp_between (by decide) (by decide) (by decide) comparable).1

/-- A step keeps a channel bounded, whatever the draw. A finite factor times a
finite step may overflow, but it can be compared, and so can its sum with a
finite reading. -/
theorem bounded_step {channel : Channel} (bounded : channel.Bounded) (draw : Float) :
    (channel.step draw).Bounded := by
  apply bounded_place bounded
  apply Number.isNaN_add bounded.valueFinite
  exact Number.isNaN_mul (isFinite_unitFactor draw) bounded.stepFinite

/-- `place` with a clamp that gives up. -/
def place? (channel : Channel) (value : Float) : Option Channel :=
  (Number.clamp? channel.lower channel.upper value).map fun placed =>
    { channel with value := placed }

/-- `unitFactor` with a clamp that gives up. -/
def unitFactor? (draw : Float) : Option Float :=
  if draw.isNaN then some 0 else Number.clamp? (-1) 1 draw

/-- `step` with clamps that give up. -/
def step? (channel : Channel) (draw : Float) : Option Channel := do
  let factor ← unitFactor? draw
  channel.place? (channel.value + factor * channel.maxStep)

/-- With bounds in order, the clamp that gives up does not, and writes what the
other one writes. -/
theorem place?_eq_some {channel : Channel} (ordered : channel.lower ≤ channel.upper)
    (value : Float) : channel.place? value = some (channel.place value) := by
  simp only [place?, Number.clamp?, if_pos ordered]
  rfl

/-- The clamp of a draw never gives up, since its bounds are fixed. -/
theorem unitFactor?_eq_some (draw : Float) : unitFactor? draw = some (unitFactor draw) := by
  have unit : (-1 : Float) ≤ 1 := by decide
  unfold unitFactor? unitFactor
  cases draw.isNaN with
  | true => rfl
  | false => simp [Number.clamp?, unit]

/-- With bounds in order, a step never gives up. It has two clamps, and one of
them has fixed bounds. -/
theorem step?_eq_some {channel : Channel} (ordered : channel.lower ≤ channel.upper)
    (draw : Float) : channel.step? draw = some (channel.step draw) := by
  rw [step?, unitFactor?_eq_some]
  exact place?_eq_some ordered _

end Channel

namespace Store

/-- Every channel of the store is bounded. -/
def Bounded (store : Store) : Prop := ∀ channel ∈ store.channels.toList, channel.Bounded

section Walk

variable {ρ : Type} [Source ρ]

/-- The walk takes one draw for each channel and keeps each one bounded. The
induction is on the channels, with any source to start from. -/
theorem bounded_walk {channels : List Channel} (bounded : ∀ channel ∈ channels, channel.Bounded)
    (source : ρ) : ∀ channel ∈ (walk channels source).1, channel.Bounded := by
  induction channels generalizing source with
  | nil => simp [walk]
  | cons first rest inductionHypothesis =>
    intro channel member
    simp only [walk, List.mem_cons] at member
    rcases member with rfl | later
    · exact Channel.bounded_step (bounded first List.mem_cons_self) _
    · exact inductionHypothesis (fun other within => bounded other (List.mem_cons_of_mem _ within))
        _ channel later

/-- A tick keeps a store bounded: it is one walk over its channels. -/
theorem bounded_tick {store : Store} (bounded : store.Bounded) (source : ρ) :
    (store.tick source).1.Bounded :=
  bounded_walk bounded source

/-- `walk` with clamps that give up. -/
def walk? : List Channel → ρ → Option (List Channel × ρ)
  | [], source => some ([], source)
  | channel :: rest, source => do
    let (draw, after) := Source.draw source
    let stepped ← channel.step? draw
    let (moved, final) ← walk? rest after
    return (stepped :: moved, final)

/-- `tick` with clamps that give up. -/
def tick? (store : Store) (source : ρ) : Option (Store × ρ) := do
  let (moved, after) ← walk? store.channels.toList source
  return ({ store with channels := moved.toArray, ticks := store.ticks + 1 }, after)

/-- Over bounded channels, a walk never gives up. Each step asks for bounds in
order, which it leaves as they are. -/
theorem walk?_eq_some {channels : List Channel} (bounded : ∀ channel ∈ channels, channel.Bounded)
    (source : ρ) : walk? channels source = some (walk channels source) := by
  induction channels generalizing source with
  | nil => rfl
  | cons first rest inductionHypothesis =>
    have restBounded : ∀ channel ∈ rest, channel.Bounded := fun channel within =>
      bounded channel (List.mem_cons_of_mem _ within)
    simp only [walk?, walk, inductionHypothesis restBounded,
      Channel.step?_eq_some (bounded first List.mem_cons_self).ordered]
    rfl

/-- On a bounded store, a tick never gives up and is the tick of the store. -/
theorem tick?_eq_some {store : Store} (bounded : store.Bounded) (source : ρ) :
    store.tick? source = some (store.tick source) := by
  rw [tick?, walk?_eq_some bounded]
  rfl

end Walk

/-- A registration keeps a store bounded: it adds one channel, and that one has
passed its check. -/
theorem bounded_register {store after : Store} {spec : ChannelSpec} (bounded : store.Bounded)
    (registered : store.register spec = .ok after) : after.Bounded := by
  obtain ⟨checked, _, rfl⟩ := register_eq_ok_iff.mp registered
  intro channel member
  rw [Array.toList_push, List.mem_append, List.mem_singleton] at member
  rcases member with former | rfl
  · exact bounded channel former
  · exact Channel.bounded_ofSpec checked

/-- An override keeps a store bounded. It writes one channel, and a value that
is not finite has been refused before. -/
theorem bounded_setValue {store after : Store} {name : String} {value stored : Float}
    (bounded : store.Bounded) (overridden : store.setValue name value = .ok (stored, after)) :
    after.Bounded := by
  obtain ⟨finite, position, held, _, atPosition, _, rfl⟩ := setValue_eq_ok_iff.mp overridden
  intro channel member
  rw [Array.toList_setIfInBounds] at member
  rcases List.mem_or_eq_of_mem_set member with former | rfl
  · exact bounded channel former
  · have heldBounded := bounded held (Array.mem_toList_iff.mpr (Array.mem_of_getElem? atPosition))
    exact Channel.bounded_place heldBounded (Number.isNaN_of_isFinite finite)

/-- Every channel is bounded after every run. This holds of the empty store, and
each call that succeeds keeps it. -/
theorem Reachable.bounded {store : Store} (reachable : Reachable store) : store.Bounded :=
  reachable.invariant (fun _ member => nomatch member)
    (fun bounded registered => bounded_register bounded registered)
    (fun source bounded => bounded_tick bounded source)
    (fun bounded overridden => bounded_setValue bounded overridden)

/-- `setValue` with a clamp that gives up. The checks before it are the same. -/
def setValue? (store : Store) (name : String) (value : Float) :
    Option (Except Fault (Float × Store)) :=
  match ensureFinite .override value, store.index[name]? with
  | .error fault, _ => some (.error fault)
  | .ok _, none => some (.error (.notRegistered .channel name))
  | .ok _, some position =>
    match store.channels[position]? with
    | none => some (.error (.notRegistered .channel name))
    | some channel =>
      (channel.place? value).map fun placed =>
        .ok (placed.value, { store with channels := store.channels.setIfInBounds position placed })

/-- On a bounded store, an override never gives up. The clamp is reached only
after the checks, and then the bounds of the channel are in order. -/
theorem setValue?_eq_some {store : Store} (bounded : store.Bounded) (name : String)
    (value : Float) : store.setValue? name value = some (store.setValue name value) := by
  unfold setValue? setValue
  cases ensureFinite .override value with
  | error fault => rfl
  | ok _ =>
    cases store.index[name]? with
    | none => rfl
    | some position =>
      cases held : store.channels[position]? with
      | none => simp [held]
      | some channel =>
        have within := Array.mem_toList_iff.mpr (Array.mem_of_getElem? held)
        simp [held, Channel.place?_eq_some (bounded channel within).ordered]

/-- After every run of registrations, ticks and overrides, refused or not and
with any sources, every channel is bounded, every reading of a snapshot is
finite and within the bounds of its channel, and the next tick or override asks
for no clamp whose bounds are not in order.

Being bounded is kept by each of the three kinds of calls, and a bounded channel
is all that the clamps of a tick and of an override ask for. -/
theorem run_within_bounds (calls : List Call) :
    let store := run calls {}
    store.Bounded ∧
      (∀ name reading, (name, reading) ∈ store.snapshot.readings →
        ∃ channel, store.channel? name = some channel ∧ reading.isFinite = true ∧
          channel.lower ≤ reading ∧ reading ≤ channel.upper) ∧
      (∀ {ρ : Type} [Source ρ] (source : ρ), store.tick? source = some (store.tick source)) ∧
      (∀ name value, store.setValue? name value = some (store.setValue name value)) := by
  intro store
  have reachable : Reachable store := ⟨calls, rfl⟩
  have bounded := reachable.bounded
  have indexed := reachable.indexed
  refine ⟨bounded, ?_, fun source => tick?_eq_some bounded source, setValue?_eq_some bounded⟩
  intro name reading listed
  rw [Snapshot.mem_readings_iff, get?_snapshot indexed, Option.map_eq_some_iff] at listed
  obtain ⟨channel, found, rfl⟩ := listed
  have within := ((channel?_eq_some_iff indexed name channel).mp found).1
  exact ⟨channel, found, (bounded channel within).valueFinite, (bounded channel within).above,
    (bounded channel within).below⟩

end Store

end Telemetry
