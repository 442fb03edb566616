import Telemetry.Proofs.Histories
import Telemetry.Proofs.StoreIndex

/-!
# A store is an ordered map from names to channels

A `Roster` is the plainest map that could stand in for a store: the channels in
the order of their registration, found by searching for a name. It has no index
to go stale and no position to go wrong. A store does for every call what its
roster does, gives the same answer and refuses with the same fault. So its
index, its channels and its snapshots are three forms of one map, and a name
that one of them knows is known to all.

What a channel was declared with is its name, its bounds and its largest step.
These are written once, at registration, and every later write is to a value.
The history of the registrations that succeeded is therefore what the store
shows at any time.
-/
namespace Telemetry

/-- What a channel keeps from its registration on: its name, its bounds and its
largest step. -/
def Channel.declaration (channel : Channel) : String × Float × Float × Float :=
  (channel.name, channel.lower, channel.upper, channel.maxStep)

/-- Channels in the order of their registration and the number of ticks made. -/
structure Roster where
  channels : List Channel := []
  ticks : Nat := 0

namespace Roster

/-- The first channel of this name. -/
def find? (roster : Roster) (name : String) : Option Channel :=
  roster.channels.find? fun channel => channel.name = name

/-- Add a channel at the end, unless its specification is not sound or its name
is taken. -/
def register (roster : Roster) (spec : ChannelSpec) : Except Fault Roster := do
  spec.check
  if (roster.find? spec.name).isSome then throw (.alreadyRegistered .channel spec.name)
  return { roster with channels := roster.channels ++ [.ofSpec spec] }

/-- Move every channel and count the tick. -/
def tick {ρ : Type} [Source ρ] (roster : Roster) (source : ρ) : Roster × ρ :=
  let (moved, after) := Store.walk roster.channels source
  (⟨moved, roster.ticks + 1⟩, after)

/-- Write into the channel that has the name. -/
def setValue (roster : Roster) (name : String) (value : Float) :
    Except Fault (Float × Roster) := do
  ensureFinite .override value
  match roster.find? name with
  | none => throw (.notRegistered .channel name)
  | some channel =>
    let written := roster.channels.map fun other =>
      if other.name = name then other.place value else other
    return ((channel.place value).value, { roster with channels := written })

/-- The roster after a call, refused or not. -/
def perform (roster : Roster) : Store.Call → Roster
  | .register spec => standing roster (roster.register spec)
  | @Store.Call.tick _ _ source => (roster.tick source).1
  | .setValue name value => standing roster ((roster.setValue name value).map Prod.snd)

end Roster

namespace Store

/-- A store without its index. -/
def roster (store : Store) : Roster := ⟨store.channels.toList, store.ticks⟩

section Squares

variable {store : Store}

/-- The index knows a name exactly when it leads to a channel, so that the two
questions a caller can ask about a name have one answer. -/
theorem contains_eq_isSome (indexed : Indexed store) (name : String) :
    store.contains name = (store.channel? name).isSome := by
  rw [Bool.eq_iff_iff, contains_iff indexed, Option.isSome_iff_exists, names, List.mem_map]
  exact exists_congr fun channel => (channel?_eq_some_iff indexed name channel).symm

/-- Searching for a name ends where the index leads. The names are distinct,
hence only one channel can be the answer of either. -/
theorem find?_roster (indexed : Indexed store) (name : String) :
    store.roster.find? name = store.channel? name := by
  ext channel
  rw [channel?_eq_some_iff indexed]
  exact find?_eq_some_iff_mem (names_nodup indexed) name channel

/-- A store and its roster agree on a registration: they refuse it with the same
fault, or both add the channel at the end. -/
theorem register_roster (indexed : Indexed store) (spec : ChannelSpec) :
    (store.register spec).map roster = store.roster.register spec := by
  unfold register Roster.register
  rw [find?_roster indexed, ← contains_eq_isSome indexed]
  cases spec.check with
  | error fault => rfl
  | ok _ =>
    cases store.contains spec.name with
    | true => rfl
    | false => simp [Except.map, roster]

/-- A tick moves the channels in their order and never looks at the index, so
that leaving the index out changes nothing of it. -/
theorem tick_roster {ρ : Type} [Source ρ] (store : Store) (source : ρ) :
    (store.tick source).1.roster = (store.roster.tick source).1 := rfl

/-- Writing at the position that the index gives is writing into the one channel
that has the name: any other channel of that name would stand at the same
position. -/
theorem set_eq_map (indexed : Indexed store) {name : String} {position : Nat}
    {channel : Channel} (found : store.index[name]? = some position)
    (held : store.channels[position]? = some channel) (value : Float) :
    store.channels.toList.set position (channel.place value) =
      store.channels.toList.map fun other =>
        if other.name = name then other.place value else other := by
  have named : ∀ {place : Nat} {other : Channel}, store.channels.toList[place]? = some other →
      (other.name = name ↔ position = place) := by
    intro place other there
    have atPlace : store.names[place]? = some other.name := by
      rw [names, List.getElem?_map, there, Option.map_some]
    constructor
    · rintro rfl
      rw [(indexed _ place).mpr atPlace] at found
      exact (Option.some.inj found).symm
    · rintro rfl
      rw [(indexed name position).mp found] at atPlace
      exact (Option.some.inj atPlace).symm
  rw [← Array.getElem?_toList] at held
  apply List.ext_getElem?
  intro place
  rw [List.getElem?_map, List.getElem?_set]
  by_cases here : position = place
  · subst here
    have within := (List.getElem?_eq_some_iff.mp held).1
    rw [if_pos rfl, if_pos within, held, Option.map_some, if_pos ((named held).mpr rfl)]
  · rw [if_neg here]
    cases there : store.channels.toList[place]? with
    | none => rfl
    | some other => rw [Option.map_some, if_neg fun same => here ((named there).mp same)]

/-- A store and its roster agree on an override. Both refuse it with the same
fault, or both return the same value and keep the same channels. -/
theorem setValue_roster (indexed : Indexed store) (name : String) (value : Float) :
    (store.setValue name value).map (Prod.map id roster) = store.roster.setValue name value := by
  unfold setValue Roster.setValue
  rw [find?_roster indexed, channel?]
  cases ensureFinite .override value with
  | error fault => rfl
  | ok _ =>
    cases found : store.index[name]? with
    | none => rfl
    | some position =>
      cases held : store.channels[position]? with
      | none => simp [held, Except.map]
      | some channel =>
        simp [held, Except.map, roster, set_eq_map indexed found held value]

/-- A call does to a store what it does to its roster, whether or not it is
refused. This is one square of the simulation of a store by a plain map. -/
theorem perform_roster (indexed : Indexed store) (call : Call) :
    (store.perform call).roster = store.roster.perform call := by
  cases call with
  | register spec =>
    rw [Roster.perform, ← register_roster indexed]
    cases outcome : store.register spec with
    | error fault => simp [perform, outcome, Except.map]
    | ok after => simp [perform, outcome, Except.map]
  | tick source => exact tick_roster store source
  | setValue name value =>
    rw [Roster.perform, ← setValue_roster indexed]
    cases outcome : store.setValue name value with
    | error fault => simp [perform, outcome, Except.map]
    | ok result => simp [perform, outcome, Except.map]

end Squares

/-- And so does a run of calls. Each store on the way can be reached from the
empty one, which is what the index needs for its square. -/
theorem run_roster (calls : List Call) :
    (run calls {}).roster = calls.foldl Roster.perform {} := by
  induction calls using List.reverseRecOn with
  | nil => rfl
  | append_singleton front last inductionHypothesis =>
    have reachable : Reachable (run front {}) := ⟨front, rfl⟩
    have split : run (front ++ [last]) {} = (run front {}).perform last := by simp [run]
    rw [split, perform_roster reachable.indexed, inductionHypothesis, List.foldl_append]
    rfl

/-- The specification that a call has registered, if it has. -/
def declared (store : Store) : Call → List ChannelSpec
  | .register spec =>
    match store.register spec with
    | .ok _ => [spec]
    | .error _ => []
  | _ => []

/-- Whether a call is a tick. -/
def Call.isTick : Call → Bool
  | @Call.tick _ _ _ => true
  | _ => false

/-- Only a registration adds a declaration, and nothing changes one: ticks and
overrides write to values, and a value is no part of what was declared. -/
theorem declarations_perform (store : Store) (call : Call) :
    (store.perform call).channels.toList.map Channel.declaration =
      store.channels.toList.map Channel.declaration ++
        (store.declared call).map fun spec => (Channel.ofSpec spec).declaration := by
  cases call with
  | register spec =>
    cases outcome : store.register spec with
    | error fault => simp [perform, declared, outcome]
    | ok after =>
      obtain ⟨_, _, rfl⟩ := register_eq_ok_iff.mp outcome
      simp [perform, declared, outcome]
  | tick source =>
    simp only [declared, List.map_nil, List.append_nil]
    exact map_walk (fun _ _ => rfl) store.channels.toList source
  | setValue name value =>
    simp only [declared, List.map_nil, List.append_nil]
    cases outcome : store.setValue name value with
    | error fault => simp [perform, outcome, Except.map]
    | ok result =>
      simp only [perform, outcome, Except.map, standing_ok]
      exact map_setValue (fun _ _ => rfl) outcome

/-- After a run the channels are declared as the registrations that succeeded
have declared them, in their order. -/
theorem declarations_run (calls : List Call) :
    (run calls {}).channels.toList.map Channel.declaration =
      (along perform declared calls {}).map fun spec => (Channel.ofSpec spec).declaration := by
  rw [along_map]
  exact shown_foldl (fun store : Store => store.channels.toList.map Channel.declaration)
    declarations_perform calls {}

/-- Only a tick moves the clock, and it moves it by one. A call that is refused
leaves the store and with it the clock. -/
theorem ticks_perform (store : Store) (call : Call) :
    (store.perform call).ticks = store.ticks + if call.isTick then 1 else 0 := by
  cases call with
  | register spec =>
    cases outcome : store.register spec with
    | error fault => simp [perform, outcome, Call.isTick]
    | ok after =>
      obtain ⟨_, _, rfl⟩ := register_eq_ok_iff.mp outcome
      simp [perform, outcome, Call.isTick]
  | tick source => rfl
  | setValue name value =>
    cases outcome : store.setValue name value with
    | error fault => simp [perform, outcome, Except.map, Call.isTick]
    | ok result =>
      obtain ⟨_, _, _, _, _, _, written⟩ := setValue_eq_ok_iff.mp outcome
      simp [perform, outcome, Except.map, Call.isTick, ← written]

/-- After a run the clock has moved by the number of ticks among the calls,
whatever stood between them. -/
theorem ticks_run (calls : List Call) (store : Store) :
    (run calls store).ticks = store.ticks + calls.countP Call.isTick := by
  induction calls generalizing store with
  | nil => rfl
  | cons call rest inductionHypothesis =>
    have first : run (call :: rest) store = run rest (store.perform call) := rfl
    rw [first, inductionHypothesis, ticks_perform, List.countP_cons]
    omega

/-- Every channel has a name. -/
def Named (store : Store) : Prop := ∀ name ∈ store.names, name ≠ ""

/-- A registration keeps every channel named, since the check of a specification
refuses the empty name before anything is stored. -/
theorem named_register {store after : Store} {spec : ChannelSpec} (named : Named store)
    (registered : store.register spec = .ok after) : Named after := by
  intro name member
  rw [names_register registered, List.mem_append, List.mem_singleton] at member
  rcases member with former | rfl
  · exact named name former
  · obtain ⟨checked, _, _⟩ := register_eq_ok_iff.mp registered
    have nonempty := (ChannelSpec.check_eq_ok_iff.mp checked).1
    intro empty
    rw [empty] at nonempty
    exact absurd nonempty (by decide)

/-- In a store that calls have led to every channel has a name: a registration
keeps it so, and ticks and overrides change no name. -/
theorem Reachable.named {store : Store} (reachable : Reachable store) : Named store := by
  refine reachable.invariant (fun name member => absurd member List.not_mem_nil)
    (fun named registered => named_register named registered) ?_ ?_
  · intro ρ _ former source named name member
    rw [names_tick] at member
    exact named name member
  · intro former after name value stored named overridden other member
    rw [(names_setValue overridden).1] at member
    exact named other member

section Queries

variable {store : Store}

/-- A reading asked for by name is the reading of a snapshot, and a name that is
refused is one that the snapshot does not cover. -/
theorem toOption_value (indexed : Indexed store) (name : String) :
    (store.value name).toOption = store.snapshot.get? name := by
  rw [get?_snapshot indexed, value, channel]
  cases store.channel? name <;> rfl

/-- Asking for a channel by name yields the registered channel that has the
name, and for any other name nothing. -/
theorem channel_eq_ok_iff (indexed : Indexed store) (name : String) (channel : Channel) :
    store.channel name = .ok channel ↔
      channel ∈ store.channels.toList ∧ channel.name = name := by
  rw [← channel?_eq_some_iff indexed, Store.channel]
  cases store.channel? name <;> simp

/-- A name can be read exactly when it was registered, because reading it
succeeds wherever the index leads to a channel. -/
theorem isOk_value_iff (indexed : Indexed store) (name : String) :
    (store.value name).isOk = true ↔ name ∈ store.names := by
  rw [← contains_iff indexed, contains_eq_isSome indexed, value, channel]
  cases store.channel? name <;> simp [Except.map]

/-- A snapshot covers each channel once. Both lists of names are free of
repetition and have the same members, so one is the other in some order. -/
theorem size_snapshot (indexed : Indexed store) : store.snapshot.size = store.names.length := by
  have same : (store.snapshot.readings.map Prod.fst).Perm store.names := by
    rw [List.perm_ext_iff_of_nodup store.snapshot.names_nodup (names_nodup indexed)]
    intro name
    rw [← Snapshot.contains_iff, contains_snapshot indexed, contains_iff indexed]
  rw [Snapshot.size, ← same.length_eq, List.length_map]

end Queries

/-- The index, the channels and the snapshots of a store are one map, which
holds what was registered: each name once, in the order of registration. -/
structure Tabulates (specs : List ChannelSpec) (store : Store) : Prop where
  registered : store.names = specs.map ChannelSpec.name
  distinct : store.names.Nodup
  named : ∀ name ∈ store.names, name ≠ ""
  indexed : ∀ name position, store.index[name]? = some position ↔
    ∃ channel : Channel, store.channels[position]? = some channel ∧ channel.name = name
  contains : ∀ name, store.contains name = true ↔ name ∈ store.names
  readable : ∀ name, (store.value name).isOk = true ↔ name ∈ store.names
  covered : ∀ name, store.snapshot.contains name = true ↔ name ∈ store.names
  reading : ∀ name, (store.value name).toOption = store.snapshot.get? name
  declared : ∀ name (channel : Channel), store.channel name = .ok channel →
    channel.name = name ∧ ∃ spec ∈ specs, spec.name = name ∧ channel.lower = spec.lower ∧
      channel.upper = spec.upper ∧ channel.maxStep = spec.maxStep
  size : store.size = store.names.length
  sizeOfSnapshot : store.snapshot.size = store.names.length

/-- After a run the store tabulates what was registered in it. The declarations
give what each channel holds, and a reachable store is indexed, which gives the
rest. -/
theorem tabulates_run (calls : List Call) :
    (run calls {}).Tabulates (along perform declared calls {}) := by
  have reachable : Reachable (run calls {}) := ⟨calls, rfl⟩
  have indexed := reachable.indexed
  have declarations := declarations_run calls
  constructor
  · have names := congrArg (List.map Prod.fst) declarations
    rw [List.map_map, List.map_map] at names
    exact names
  · exact names_nodup indexed
  · exact reachable.named
  · intro name position
    rw [indexed name position, names, List.getElem?_map, Option.map_eq_some_iff]
    simp only [Array.getElem?_toList]
  · exact contains_iff indexed
  · exact isOk_value_iff indexed
  · intro name
    rw [contains_snapshot indexed, contains_iff indexed]
  · exact toOption_value indexed
  · intro name channel found
    obtain ⟨member, same⟩ := (channel_eq_ok_iff indexed name channel).mp found
    refine ⟨same, ?_⟩
    have listed := List.mem_map_of_mem (f := Channel.declaration) member
    rw [declarations, List.mem_map] at listed
    obtain ⟨spec, given, agrees⟩ := listed
    simp only [Channel.declaration, Channel.ofSpec, Prod.mk.injEq] at agrees
    obtain ⟨name, lower, upper, step⟩ := agrees
    exact ⟨spec, given, name.trans same, lower.symm, upper.symm, step.symm⟩
  · simp [Store.size, names]
  · exact size_snapshot indexed

/-- What a successful override does: it writes the number, clamped into the
bounds of its channel, and touches nothing else. -/
theorem setValue_writes {store after : Store} (indexed : Indexed store) {name : String}
    {value stored : Float} (overridden : store.setValue name value = .ok (stored, after)) :
    ∃ channel, store.channel name = .ok channel ∧
      stored = Number.clamp channel.lower channel.upper value ∧
      after.channel name = .ok { channel with value := stored } ∧
      (∀ other, other ≠ name → after.channel other = store.channel other) ∧
      after.names = store.names ∧ after.index = store.index ∧ after.ticks = store.ticks := by
  have sameNames := (names_setValue overridden).1
  obtain ⟨_, position, channel, found, held, rfl, rfl⟩ := setValue_eq_ok_iff.mp overridden
  have within := (Array.getElem?_eq_some_iff.mp held).1
  refine ⟨channel, ?_, rfl, ?_, ?_, sameNames, rfl, rfl⟩
  · simp [Store.channel, channel?, found, held]
  · simp [Store.channel, channel?, found, within, Channel.place]
  · intro other different
    unfold Store.channel channel?
    cases there : store.index[other]? with
    | none => rfl
    | some place =>
      have apart : position ≠ place := by
        rintro rfl
        rw [indexed other position] at there
        rw [indexed name position, there] at found
        exact different (Option.some.inj found)
      simp [Array.getElem?_setIfInBounds_ne apart]

/-- After every run of registrations, ticks and overrides, refused or not, a
store is the plain map that the same calls build, and answers each further call
as that map does. Its index, its channels and its snapshots agree on every name
and hold what was registered, and a snapshot carries the number of ticks made.
An override succeeds exactly for a finite number and a registered name; it then
stores and returns the number clamped into the bounds, and no other channel, no
name, no position and no tick changes. A refused call changes nothing.

Every call makes a square with the call on the roster, and a roster has nothing
beside its channels that could disagree with them. -/
theorem run_is_ordered_map (calls : List Call) :
    let store := run calls {}
    store.roster = calls.foldl Roster.perform {} ∧
      (∀ spec, (store.register spec).map roster = store.roster.register spec) ∧
      (∀ name value, (store.setValue name value).map (Prod.map id roster) =
        store.roster.setValue name value) ∧
      store.Tabulates (along perform declared calls {}) ∧
      store.snapshot.tick = calls.countP Call.isTick ∧
      (∀ name value, (store.setValue name value).isOk = true ↔
        value.isFinite = true ∧ name ∈ store.names) ∧
      (∀ name value stored after, store.setValue name value = .ok (stored, after) →
        ∃ channel, store.channel name = .ok channel ∧
          stored = Number.clamp channel.lower channel.upper value ∧
          after.channel name = .ok { channel with value := stored } ∧
          (∀ other, other ≠ name → after.channel other = store.channel other) ∧
          after.names = store.names ∧ after.index = store.index ∧ after.ticks = store.ticks) ∧
      (∀ spec fault, store.register spec = .error fault →
        store.perform (.register spec) = store) ∧
      ∀ name value fault, store.setValue name value = .error fault →
        store.perform (.setValue name value) = store := by
  intro store
  have reachable : Reachable store := ⟨calls, rfl⟩
  have indexed := reachable.indexed
  refine ⟨run_roster calls, register_roster indexed, setValue_roster indexed, tabulates_run calls,
    ?_, isOk_setValue_iff indexed, fun _ _ _ _ => setValue_writes indexed, ?_, ?_⟩
  · rw [tick_snapshot, ticks_run, Nat.zero_add]
  · intro spec fault refused
    rw [perform, refused, standing_error]
  · intro name value fault refused
    rw [perform, refused]
    rfl

end Store

end Telemetry
