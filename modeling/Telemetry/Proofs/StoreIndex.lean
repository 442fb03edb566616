import Mathlib.Data.List.Nodup
import Std.Data.HashMap.Lemmas
import Telemetry.Proofs.Refusal
import Telemetry.Proofs.SnapshotReadings
import Telemetry.Store

/-!
# The index of a store agrees with its channels

A store answers by name through an index and makes snapshots from the channels
themselves. The two agree as long as the index maps a name to a position exactly
when the channel at that position has the name. This one equivalence also says
that no two channels share a name, because the index has one position for each.

Registration extends both sides by one entry. A tick and an override change
readings only, and the invariant mentions no reading. So it holds after every
run of calls, whichever of them were refused, and then asking the index, listing
the names and reading a snapshot are three ways of asking one question.
-/
namespace Telemetry

/-- Exactly what a specification must satisfy to be accepted. The checks come
one after another, and passing all of them is passing each. -/
theorem ChannelSpec.check_eq_ok_iff {spec : ChannelSpec} :
    spec.check = .ok () ↔
      spec.name.isEmpty = false ∧ spec.initial.isFinite = true ∧ spec.lower.isFinite = true ∧
        spec.upper.isFinite = true ∧ spec.maxStep.isFinite = true ∧ ¬ spec.upper < spec.lower ∧
        (spec.lower ≤ spec.initial ∧ spec.initial ≤ spec.upper) ∧ ¬ spec.maxStep < 0 := by
  unfold ChannelSpec.check
  simp [guarded_eq_ok_iff, ensureFinite_bind_eq_ok_iff]

namespace Store

/-- The index maps a name to a position exactly when the channel there has
it. -/
def Indexed (store : Store) : Prop :=
  ∀ (name : String) (position : Nat),
    store.index[name]? = some position ↔ store.names[position]? = some name

/-- What a registration that succeeds has checked and done: the specification is
accepted, the name is new, and one channel and one entry of the index are
added. -/
theorem register_eq_ok_iff {store after : Store} {spec : ChannelSpec} :
    store.register spec = .ok after ↔
      spec.check = .ok () ∧ store.contains spec.name = false ∧
        after = { store with
          channels := store.channels.push (.ofSpec spec)
          index := store.index.insert spec.name store.channels.size } := by
  unfold register
  cases checked : spec.check with
  | error fault => simp
  | ok _ =>
    cases known : store.contains spec.name with
    | true => simp
    | false => simp [eq_comm]

/-- What an override that succeeds has found and done. The value is finite, the
index knows the name, and one channel is written at its position. -/
theorem setValue_eq_ok_iff {store after : Store} {name : String} {value stored : Float} :
    store.setValue name value = .ok (stored, after) ↔
      value.isFinite = true ∧ ∃ position channel,
        store.index[name]? = some position ∧ store.channels[position]? = some channel ∧
          (channel.place value).value = stored ∧
          { store with
            channels := store.channels.setIfInBounds position (channel.place value) } = after := by
  unfold setValue
  rw [ensureFinite_bind_eq_ok_iff]
  refine and_congr_right fun _ => ?_
  cases found : store.index[name]? with
  | none => simp
  | some position =>
    cases held : store.channels[position]? with
    | none => simp [held]
    | some channel => simp [held]

section Frames

variable {ρ : Type} [Source ρ]

/-- A walk leaves everything of a channel that writing a value leaves. Which
part this is does not matter, so that one induction serves names, bounds and
declarations. -/
theorem map_walk {β : Type} {part : Channel → β}
    (kept : ∀ channel value, part (channel.place value) = part channel)
    (channels : List Channel) (source : ρ) :
    (walk channels source).1.map part = channels.map part := by
  induction channels generalizing source with
  | nil => rfl
  | cons channel rest inductionHypothesis =>
    simp only [walk, List.map_cons, inductionHypothesis, Channel.step, kept]

/-- A tick leaves the names alone, since writing a value does. -/
@[simp] theorem names_tick (store : Store) (source : ρ) :
    (store.tick source).1.names = store.names :=
  map_walk (fun _ _ => rfl) store.channels.toList source

/-- A tick leaves the index alone: positions do not change when readings do. -/
@[simp] theorem index_tick (store : Store) (source : ρ) :
    (store.tick source).1.index = store.index := rfl

end Frames

/-- So does an override leave everything that writing a value leaves. It writes
one channel, and that one has the same part as before. -/
theorem map_setValue {β : Type} {part : Channel → β}
    (kept : ∀ channel value, part (channel.place value) = part channel)
    {store after : Store} {name : String} {value stored : Float}
    (overridden : store.setValue name value = .ok (stored, after)) :
    after.channels.toList.map part = store.channels.toList.map part := by
  obtain ⟨_, position, channel, _, held, _, rfl⟩ := setValue_eq_ok_iff.mp overridden
  obtain ⟨within, rfl⟩ := Array.getElem?_eq_some_iff.mp held
  have bound : position < (store.channels.toList.map part).length := by simpa using within
  have same : part (store.channels[position].place value) =
      (store.channels.toList.map part)[position] := by
    simp [kept]
  rw [Array.toList_setIfInBounds, List.map_set, same, List.set_getElem_self]

/-- An override leaves the names and the index alone. -/
theorem names_setValue {store after : Store} {name : String} {value stored : Float}
    (overridden : store.setValue name value = .ok (stored, after)) :
    after.names = store.names ∧ after.index = store.index := by
  refine ⟨map_setValue (fun _ _ => rfl) overridden, ?_⟩
  obtain ⟨_, _, _, _, _, _, rfl⟩ := setValue_eq_ok_iff.mp overridden
  rfl

/-- A registration adds its name at the end, so that the positions of the others
stay. -/
theorem names_register {store after : Store} {spec : ChannelSpec}
    (registered : store.register spec = .ok after) : after.names = store.names ++ [spec.name] := by
  obtain ⟨_, _, rfl⟩ := register_eq_ok_iff.mp registered
  simp [names, Channel.ofSpec]

/-- The empty store has nothing to disagree about. -/
theorem indexed_empty : Indexed {} := by
  intro name position
  simp [names]

/-- A new name gets the next position, which no other name has. Every other name
keeps its position, and the index finds it there as before. -/
theorem indexed_register {store after : Store} {spec : ChannelSpec} (indexed : Indexed store)
    (registered : store.register spec = .ok after) : Indexed after := by
  have extended := names_register registered
  obtain ⟨_, fresh, rfl⟩ := register_eq_ok_iff.mp registered
  have unknown : store.index[spec.name]? = none := by
    simpa [contains] using fresh
  have length : store.names.length = store.channels.size := by simp [names]
  intro name position
  rw [extended, Std.HashMap.getElem?_insert, List.getElem?_append]
  by_cases within : position < store.names.length
  · rw [if_pos within, ← indexed name position]
    by_cases same : spec.name = name
    · subst same
      have notNext : store.channels.size ≠ position := by omega
      simp [unknown, notNext]
    · simp [same]
  · rw [if_neg within]
    have unindexed : ¬ store.index[name]? = some position := by
      rw [indexed name position, List.getElem?_eq_none (by omega)]
      simp
    by_cases same : spec.name = name
    · subst same
      simp only [beq_self_eq_true, ↓reduceIte, Option.some.injEq]
      rw [List.getElem?_singleton]
      constructor
      · intro next
        rw [if_pos (by omega)]
      · intro atNext
        by_contra
        rw [if_neg (by omega)] at atNext
        exact nomatch atNext
    · rw [if_neg (by simpa using same)]
      refine iff_of_false unindexed ?_
      intro atNext
      exact same (List.mem_singleton.mp (List.mem_of_getElem? atNext)).symm

/-- Whatever leaves names and index alone keeps them in agreement. Agreement
says nothing about readings. -/
theorem indexed_of_same {store after : Store} (indexed : Indexed store)
    (sameNames : after.names = store.names) (sameIndex : after.index = store.index) :
    Indexed after := by
  intro name position
  rw [sameNames, sameIndex]
  exact indexed name position

/-- A snapshot is dated by the ticks of its store. -/
@[simp] theorem tick_snapshot (store : Store) : store.snapshot.tick = store.ticks :=
  Snapshot.tick_ofPairs store.ticks _

section Agreement

variable {store : Store}

/-- No two channels of a store share a name. If two positions had one name, the
index would map it to both. -/
theorem names_nodup (indexed : Indexed store) : store.names.Nodup := by
  rw [List.nodup_iff_injective_getElem]
  intro first second same
  dsimp only at same
  have atFirst := (indexed _ first).mpr (List.getElem?_eq_getElem first.isLt)
  have atSecond := (indexed _ second).mpr (List.getElem?_eq_getElem second.isLt)
  rw [same] at atFirst
  exact Fin.ext (Option.some.inj (atFirst.symm.trans atSecond))

/-- The index knows exactly the names of the channels. -/
theorem contains_iff (indexed : Indexed store) (name : String) :
    store.contains name = true ↔ name ∈ store.names := by
  unfold contains
  rw [Std.HashMap.contains_eq_isSome_getElem?, Option.isSome_iff_exists, List.mem_iff_getElem?]
  exact exists_congr fun position => indexed name position

/-- Looking a channel up through the index finds the one that has the name.
There is only one, so that being in the list with this name is enough. -/
theorem channel?_eq_some_iff (indexed : Indexed store) (name : String) (channel : Channel) :
    store.channel? name = some channel ↔ channel ∈ store.channels.toList ∧ channel.name = name := by
  unfold channel?
  rw [Option.bind_eq_some_iff]
  constructor
  · rintro ⟨position, found, held⟩
    rw [indexed name position] at found
    have named : some channel.name = some name := by
      rw [← found, names, List.getElem?_map, Array.getElem?_toList, held]
      rfl
    exact ⟨Array.mem_toList_iff.mpr (Array.mem_of_getElem? held), Option.some.inj named⟩
  · rintro ⟨member, rfl⟩
    obtain ⟨position, held⟩ := List.mem_iff_getElem?.mp member
    refine ⟨position, (indexed _ position).mpr ?_, by rwa [Array.getElem?_toList] at held⟩
    rw [names, List.getElem?_map, held]
    rfl

/-- The store accepts an override exactly when the value is finite and the
channel is registered. The bounds of the channel have no part in this, because a
value beyond them is clamped. -/
theorem isOk_setValue_iff (indexed : Indexed store) (name : String) (value : Float) :
    (store.setValue name value).isOk = true ↔ value.isFinite = true ∧ name ∈ store.names := by
  constructor
  · intro accepted
    cases written : store.setValue name value with
    | error fault => simp [written] at accepted
    | ok result =>
      obtain ⟨finite, position, channel, found, _⟩ := setValue_eq_ok_iff.mp written
      exact ⟨finite, List.mem_of_getElem? ((indexed name position).mp found)⟩
  · rintro ⟨finite, member⟩
    obtain ⟨channel, within, same⟩ := List.mem_map.mp member
    have held := (channel?_eq_some_iff indexed name channel).mpr ⟨within, same⟩
    obtain ⟨position, found, placed⟩ := Option.bind_eq_some_iff.mp held
    have written := setValue_eq_ok_iff.mpr ⟨finite, position, channel, found, placed, rfl, rfl⟩
    rw [written, isOk_ok]

/-- A snapshot reads the value of the channel that the index finds. It is made
from the list of all readings, in which no name repeats. -/
theorem get?_snapshot (indexed : Indexed store) (name : String) :
    store.snapshot.get? name = (store.channel? name).map Channel.value := by
  have distinct : ((store.channels.toList.map fun channel => (channel.name, channel.value)).map
      Prod.fst).Nodup := by
    rw [List.map_map]
    exact names_nodup indexed
  ext reading
  rw [snapshot, Snapshot.get?_ofPairs_iff distinct, List.mem_map, Option.map_eq_some_iff]
  refine exists_congr fun channel => ?_
  rw [channel?_eq_some_iff indexed, Prod.mk.injEq, and_assoc]

/-- A snapshot has a reading of exactly the channels that the index knows. -/
theorem contains_snapshot (indexed : Indexed store) :
    store.snapshot.contains = store.contains := by
  funext name
  rw [Bool.eq_iff_iff, contains_iff indexed, Snapshot.contains, get?_snapshot indexed,
    Option.isSome_map, Option.isSome_iff_exists, names, List.mem_map]
  exact exists_congr fun channel => channel?_eq_some_iff indexed name channel

end Agreement

/-- A call that a store can receive. A tick may come with any source. -/
inductive Call : Type 1 where
  | register (spec : ChannelSpec)
  | tick {ρ : Type} [Source ρ] (source : ρ)
  | setValue (name : String) (value : Float)

/-- The store after a call, refused or not. -/
def perform (store : Store) : Call → Store
  | .register spec => standing store (store.register spec)
  | @Call.tick _ _ source => (store.tick source).1
  | .setValue name value => standing store ((store.setValue name value).map Prod.snd)

/-- The store after calls made one after another. -/
def run (calls : List Call) (store : Store) : Store := calls.foldl perform store

/-- A store that some run of calls leads to from the empty one. -/
def Reachable (store : Store) : Prop := ∃ calls, run calls {} = store

/-- What holds of the empty store and survives each call that succeeds holds of
every store that can be reached. A refused call leaves the store as it was, so
it need not be looked at. -/
theorem Reachable.invariant {Holds : Store → Prop} (initial : Holds {})
    (registered : ∀ {store after : Store} {spec : ChannelSpec}, Holds store →
      store.register spec = .ok after → Holds after)
    (ticked : ∀ {ρ : Type} [Source ρ] {store : Store} (source : ρ), Holds store →
      Holds (store.tick source).1)
    (overridden : ∀ {store after : Store} {name : String} {value stored : Float}, Holds store →
      store.setValue name value = .ok (stored, after) → Holds after)
    {store : Store} (reachable : Reachable store) : Holds store := by
  obtain ⟨calls, rfl⟩ := reachable
  refine List.foldlRecOn calls perform initial ?_
  intro former holds call _
  cases call with
  | register spec =>
    cases outcome : former.register spec with
    | error fault => simpa [perform, outcome] using holds
    | ok after => simpa [perform, outcome] using registered holds outcome
  | tick source => exact ticked source holds
  | setValue name value =>
    cases outcome : former.setValue name value with
    | error fault => simpa [perform, outcome, Except.map] using holds
    | ok result => simpa [perform, outcome, Except.map] using overridden holds outcome

/-- One more call leads from a reachable store to a reachable store. -/
theorem Reachable.perform {store : Store} (reachable : Reachable store) (call : Call) :
    Reachable (store.perform call) := by
  obtain ⟨calls, rfl⟩ := reachable
  exact ⟨calls ++ [call], by simp [run]⟩

/-- The index agrees with the channels after every run, whichever calls were
refused. -/
theorem Reachable.indexed {store : Store} (reachable : Reachable store) : Indexed store :=
  reachable.invariant indexed_empty
    (fun indexed registered => indexed_register indexed registered)
    (fun source indexed => indexed_of_same indexed (names_tick _ source) (index_tick _ source))
    (fun indexed overridden =>
      indexed_of_same indexed (names_setValue overridden).1 (names_setValue overridden).2)

end Store

end Telemetry
