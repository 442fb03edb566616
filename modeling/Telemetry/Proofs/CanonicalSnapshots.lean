import Mathlib.Data.Finset.Card
import Mathlib.Data.List.Lex
import Telemetry.Json.Codec
import Telemetry.Proofs.StoreIndex

/-!
# A snapshot has one form

Readings may arrive in any order and under one name more than once. What is kept
of them is the last value of each name, and it is kept in one order. So a
snapshot depends on nothing but the last values: two histories of readings that
end in the same values give the same list, and with it the same text. The same
holds of stores, whatever the order in which their channels were registered.

The order compares names character by character. It is also the order of their
bytes in UTF-8. For characters of one length this is the comparison of their
codes six bits at a time, and a longer encoding begins with a greater byte.
Since no encoding is the beginning of another, whatever follows the first
difference does not matter.
-/
namespace Telemetry

/-- A name stands before another in the order of their UTF-8 bytes. -/
def BytesBefore (first second : String) : Prop :=
  List.Lex (· < ·) first.toUTF8.data.toList second.toUTF8.data.toList

section ByteOrder

/-- The bytes of the character with a code: the first one tells how many follow,
and each of these holds six bits. -/
def utf8Codes (code : Nat) : List Nat :=
  if code ≤ 0x7f then [code]
  else if code ≤ 0x7ff then [0xc0 + code / 64, 0x80 + code % 64]
  else if code ≤ 0xffff then [0xe0 + code / 4096, 0x80 + code / 64 % 64, 0x80 + code % 64]
  else [0xf0 + code / 262144, 0x80 + code / 4096 % 64, 0x80 + code / 64 % 64, 0x80 + code % 64]

/-- The code of a character needs no more than twenty-one bits, which is why
four bytes are enough for any of them. -/
theorem code_lt (c : Char) : c.toNat < 0x110000 := by
  have valid := c.valid
  simp only [UInt32.isValidChar, Nat.isValidChar] at valid
  rw [Char.toNat]
  omega

/-- The bytes that encode a character are those computed from its code. The
encoder masks and shifts its bits; dividing and taking remainders says the same
of numbers. -/
theorem map_toNat_utf8EncodeChar (c : Char) :
    (String.utf8EncodeChar c).map UInt8.toNat = utf8Codes c.toNat := by
  have bound := code_lt c
  rw [Char.toNat] at bound ⊢
  unfold String.utf8EncodeChar utf8Codes
  dsimp only
  split_ifs <;>
    simp only [List.map_cons, List.map_nil, UInt8.toNat_ofNat', List.cons.injEq, and_true] <;>
    omega

/-- The lower of two codes has the lower bytes, whatever follows them. Codes of
one length are compared six bits at a time, and a longer encoding begins with a
greater byte. -/
theorem lex_utf8Codes {low high : Nat} (before : low < high) (front back : List Nat) :
    List.Lex (· < ·) (utf8Codes low ++ front) (utf8Codes high ++ back) := by
  -- Where the upper bits agree, the six bits below them decide.
  have last : low / 64 < high / 64 ∨ low / 64 = high / 64 ∧ low % 64 < high % 64 := by omega
  have middle : low / 64 < high / 64 →
      low / 4096 < high / 4096 ∨
        low / 4096 = high / 4096 ∧ low / 64 % 64 < high / 64 % 64 := by omega
  have first : low / 4096 < high / 4096 →
      low / 262144 < high / 262144 ∨
        low / 262144 = high / 262144 ∧ low / 4096 % 64 < high / 4096 % 64 := by omega
  unfold utf8Codes
  split_ifs <;> simp only [List.cons_append, List.nil_append, List.cons_lex_cons_iff] <;> omega

/-- Bytes are in order when their numbers are, so that the comparison of
encodings can be made among numbers. -/
theorem lex_of_map_toNat {first second : List UInt8}
    (before : List.Lex (· < ·) (first.map UInt8.toNat) (second.map UInt8.toNat)) :
    List.Lex (· < ·) first second := by
  induction first generalizing second with
  | nil =>
    cases second with
    | nil => cases before
    | cons byte rest => exact .nil
  | cons byte rest inductionHypothesis =>
    cases second with
    | nil => cases before
    | cons other later =>
      rw [List.map_cons, List.map_cons, List.cons_lex_cons_iff] at before
      rcases before with lower | ⟨same, behind⟩
      · exact .rel lower
      · rw [UInt8.toNat_inj] at same
        exact same ▸ .cons (inductionHypothesis behind)

/-- Characters in order have their bytes in order. Equal characters at the front
have equal bytes, and the first that differ settle the order of everything
behind them. -/
theorem lex_flatMap_utf8EncodeChar {first second : List Char}
    (before : List.Lex (· < ·) first second) :
    List.Lex (· < ·) (first.flatMap String.utf8EncodeChar)
      (second.flatMap String.utf8EncodeChar) := by
  induction before with
  | @nil c rest =>
    rw [List.flatMap_nil, List.flatMap_cons]
    cases encoded : String.utf8EncodeChar c with
    | nil => exact absurd encoded String.utf8EncodeChar_ne_nil
    | cons byte later => exact .nil
  | @rel c front d back below =>
    rw [List.flatMap_cons, List.flatMap_cons]
    apply lex_of_map_toNat
    rw [List.map_append, List.map_append, map_toNat_utf8EncodeChar, map_toNat_utf8EncodeChar]
    exact lex_utf8Codes below _ _
  | @cons c front back _ inductionHypothesis =>
    rw [List.flatMap_cons, List.flatMap_cons]
    exact inductionHypothesis.append_left _ (String.utf8EncodeChar c)

/-- The bytes of a text are those of its characters, one encoding after another.
So what is shown of lists of characters holds of texts. -/
theorem utf8_eq_flatMap (text : String) :
    text.toUTF8.data.toList = text.toList.flatMap String.utf8EncodeChar := by
  rw [← String.ofList_toList (s := text), String.toUTF8_eq_toByteArray, String.toByteArray_ofList,
    List.utf8Encode, List.toList_data_toByteArray, String.toList_ofList]

/-- Names in order have their bytes in order: the order of texts is that of
their characters, and this carries over to the encodings. -/
theorem bytesBefore_of_lt {first second : String} (before : first < second) :
    BytesBefore first second := by
  rw [BytesBefore, utf8_eq_flatMap, utf8_eq_flatMap]
  exact lex_flatMap_utf8EncodeChar before

-- In units of sixteen bits, the second of these would come first.
example : BytesBefore "\uffff" "😀" := bytesBefore_of_lt (by decide)

end ByteOrder

/-- What the last pair of a name holds. -/
def lastReading? (pairs : List (String × Float)) (name : String) : Option Float :=
  (pairs.filter fun pair => pair.1 = name).getLast?.map Prod.snd

/-- A name has a last value exactly when it occurs among the pairs, since the
pairs of the name are then a list that is not empty. -/
theorem isSome_lastReading?_iff {pairs : List (String × Float)} {name : String} :
    (lastReading? pairs name).isSome = true ↔ name ∈ pairs.map Prod.fst := by
  rw [lastReading?, Option.isSome_map, List.getLast?_isSome, ne_eq, List.filter_eq_nil_iff]
  simp

namespace Snapshot

/-- A snapshot reads the last pair of each name. Searching from the back for the
first pair of a name and keeping the pairs of a name to take the last are one
thing. -/
theorem get?_ofPairs_eq_lastReading? (tick : Nat) (pairs : List (String × Float))
    (name : String) : (ofPairs tick pairs).get? name = lastReading? pairs name := by
  rw [get?_ofPairs, lookup_eq_head?, List.filter_reverse, List.head?_reverse, lastReading?]

/-- A snapshot lists one reading for each name that occurs: its names are
distinct, and as a set they are the names of the pairs. -/
theorem size_ofPairs (tick : Nat) (pairs : List (String × Float)) :
    (ofPairs tick pairs).size = (pairs.map Prod.fst).toFinset.card := by
  have sameNames : ((ofPairs tick pairs).readings.map Prod.fst).toFinset =
      (pairs.map Prod.fst).toFinset := by
    ext name
    rw [List.mem_toFinset, List.mem_toFinset, ← contains_iff, contains,
      get?_ofPairs_eq_lastReading?, isSome_lastReading?_iff]
  rw [← sameNames, List.toFinset_card_of_nodup (names_nodup _), List.length_map, size]

/-- Two snapshots of one tick that list the same readings are one, because a
list can be put into strictly increasing order in one way only. -/
theorem eq_of_perm {left right : Snapshot} (sameTick : left.tick = right.tick)
    (same : left.readings.Perm right.readings) : left = right := by
  have sameReadings : left.readings = right.readings := by
    apply List.Perm.eq_of_pairwise _ left.ordered right.ordered same
    intro first second _ _ before behind
    exact absurd behind (String.lt_asymm before)
  cases left
  cases right
  cases sameTick
  cases sameReadings
  rfl

/-- Two snapshots of one tick that read every name alike are one: what their
names read is what they list, and their order leaves no choice. -/
theorem eq_of_get? {left right : Snapshot} (sameTick : left.tick = right.tick)
    (same : ∀ name, left.get? name = right.get? name) : left = right := by
  apply eq_of_perm sameTick
  rw [List.perm_ext_iff_of_nodup (left.names_nodup.of_map _) (right.names_nodup.of_map _)]
  rintro ⟨name, value⟩
  rw [mem_readings_iff, mem_readings_iff, same]

/-- Pairs are collected into one snapshot exactly when their last values are the
same. The last values are all that it reads, and what it reads determines it. -/
theorem ofPairs_eq_iff {tick : Nat} {pairs others : List (String × Float)} :
    ofPairs tick pairs = ofPairs tick others ↔
      ∀ name, lastReading? pairs name = lastReading? others name := by
  constructor
  · intro same name
    rw [← get?_ofPairs_eq_lastReading? tick, same, get?_ofPairs_eq_lastReading?]
  · intro same
    apply eq_of_get?
    · rw [tick_ofPairs, tick_ofPairs]
    · intro name
      rw [get?_ofPairs_eq_lastReading?, same, get?_ofPairs_eq_lastReading?]

end Snapshot

/-- The name of a channel and its value. -/
def Channel.reading (channel : Channel) : String × Float := (channel.name, channel.value)

namespace Store

/-- A snapshot lists the readings of the channels, each once. The channels stand
in the order of their registration and the readings in that of their names,
hence the permutation. -/
theorem readings_snapshot {store : Store} (indexed : Indexed store) :
    store.snapshot.readings.Perm (store.channels.toList.map Channel.reading) := by
  have distinct : ((store.channels.toList.map Channel.reading).map Prod.fst).Nodup := by
    rw [List.map_map]
    exact names_nodup indexed
  rw [List.perm_ext_iff_of_nodup (store.snapshot.names_nodup.of_map _) (distinct.of_map _)]
  rintro ⟨name, value⟩
  rw [Snapshot.mem_readings_iff]
  exact Snapshot.get?_ofPairs_iff distinct name value

/-- Two stores show one snapshot exactly when they have made the same number of
ticks and have the same readings, in whatever order. -/
theorem snapshot_eq_iff {first second : Store} (firstIndexed : Indexed first)
    (secondIndexed : Indexed second) :
    first.snapshot = second.snapshot ↔ first.ticks = second.ticks ∧
      (first.channels.toList.map Channel.reading).Perm
        (second.channels.toList.map Channel.reading) := by
  constructor
  · intro same
    constructor
    · rw [← tick_snapshot, same, tick_snapshot]
    · exact (readings_snapshot firstIndexed).symm.trans (same ▸ readings_snapshot secondIndexed)
  · rintro ⟨ticks, readings⟩
    apply Snapshot.eq_of_perm
    · rw [tick_snapshot, tick_snapshot, ticks]
    · exact (readings_snapshot firstIndexed).trans
        (readings.trans (readings_snapshot secondIndexed).symm)

end Store

/-- However pairs are given, the snapshot collected from them reads for each
name the value of its last pair, and nothing for a name without a pair. It lists
just these readings, one for each distinct name, and the names are strictly
increasing in the order of their UTF-8 bytes. Pairs give the same snapshot
exactly when they have the same last values; they are then listed in the same
order and written as the same text. Two stores that calls can lead to show the
same snapshot exactly when their ticks and the readings of their channels are
the same, in whatever order the channels were registered, and then it is written
as the same text.

A snapshot is determined by what it reads, since its names are strictly
increasing, and it reads the last values and nothing else. -/
theorem snapshots_canonical :
    (∀ (tick : Nat) (pairs : List (String × Float)),
      let snapshot := Snapshot.ofPairs tick pairs
      snapshot.tick = tick ∧
        (∀ name, snapshot.get? name = lastReading? pairs name) ∧
        (∀ name value, (name, value) ∈ snapshot.readings ↔
          lastReading? pairs name = some value) ∧
        snapshot.readings.Pairwise (fun first second => BytesBefore first.1 second.1) ∧
        snapshot.size = (pairs.map Prod.fst).toFinset.card ∧
        ∀ others, let other := Snapshot.ofPairs tick others
          (snapshot = other ↔ ∀ name, lastReading? pairs name = lastReading? others name) ∧
            ((∀ name, lastReading? pairs name = lastReading? others name) →
              snapshot.readings = other.readings ∧
                snapshot.toJson.compact = other.toJson.compact)) ∧
      ∀ first second : Store, first.Reachable → second.Reachable →
        let sameReadings := first.ticks = second.ticks ∧
          (first.channels.toList.map Channel.reading).Perm
            (second.channels.toList.map Channel.reading)
        (first.snapshot = second.snapshot ↔ sameReadings) ∧
          (sameReadings →
            first.snapshot.readings = second.snapshot.readings ∧
              first.snapshot.toJson.compact = second.snapshot.toJson.compact) := by
  constructor
  · intro tick pairs snapshot
    refine ⟨Snapshot.tick_ofPairs tick pairs, Snapshot.get?_ofPairs_eq_lastReading? tick pairs, ?_,
      snapshot.ordered.imp bytesBefore_of_lt, Snapshot.size_ofPairs tick pairs, ?_⟩
    · intro name value
      rw [Snapshot.mem_readings_iff, Snapshot.get?_ofPairs_eq_lastReading?]
    · intro others other
      refine ⟨Snapshot.ofPairs_eq_iff, ?_⟩
      intro same
      have one : snapshot = other := Snapshot.ofPairs_eq_iff.mpr same
      rw [one]
      exact ⟨rfl, rfl⟩
  · intro first second firstReachable secondReachable sameReadings
    have exactly := Store.snapshot_eq_iff firstReachable.indexed secondReachable.indexed
    refine ⟨exactly, ?_⟩
    intro same
    rw [exactly.mpr same]
    exact ⟨rfl, rfl⟩

end Telemetry
