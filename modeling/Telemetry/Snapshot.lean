/-!
# Snapshots

A snapshot holds every channel's reading at one tick. Readings are kept in the
order of their names, each name once; a later reading of the same name replaces
the earlier one. The order is part of the type, so two snapshots that agree on
every name are the same list.
-/
namespace Telemetry

/-- Put a reading in its place in a list ordered by name. -/
def insertReading (name : String) (value : Float) :
    List (String × Float) → List (String × Float)
  | [] => [(name, value)]
  | (other, reading) :: rest =>
    if name < other then (name, value) :: (other, reading) :: rest
    else if name = other then (name, value) :: rest
    else (other, reading) :: insertReading name value rest

/-- Names stand in strictly increasing order. -/
def NameOrdered (readings : List (String × Float)) : Prop :=
  readings.Pairwise fun first second => first.1 < second.1

/-- Insertion brings in no name but its own: an entry afterwards has the
inserted name, or shares its name with an entry that was there before. -/
theorem fst_mem_insertReading {name : String} {value : Float} {readings : List (String × Float)}
    {entry : String × Float} (member : entry ∈ insertReading name value readings) :
    entry.1 = name ∨ ∃ former ∈ readings, former.1 = entry.1 := by
  induction readings with
  | nil => simp_all [insertReading]
  | cons first rest inductionHypothesis =>
    obtain ⟨other, reading⟩ := first
    simp only [insertReading] at member
    split at member
    · rcases List.mem_cons.1 member with rfl | former
      · exact .inl rfl
      · exact .inr ⟨entry, former, rfl⟩
    · split at member
      · rcases List.mem_cons.1 member with rfl | former
        · exact .inl rfl
        · exact .inr ⟨entry, List.mem_cons_of_mem _ former, rfl⟩
      · rcases List.mem_cons.1 member with rfl | former
        · exact .inr ⟨_, List.mem_cons_self, rfl⟩
        · rcases inductionHypothesis former with same | ⟨old, within, same⟩
          · exact .inl same
          · exact .inr ⟨old, List.mem_cons_of_mem _ within, same⟩

/-- Insertion keeps the order. What stands before the new entry has a smaller
name, since the search went on there, and what stands behind it a greater
one. -/
theorem nameOrdered_insertReading {name : String} {value : Float}
    {readings : List (String × Float)} (ordered : NameOrdered readings) :
    NameOrdered (insertReading name value readings) := by
  induction readings with
  | nil => simp [insertReading, NameOrdered]
  | cons first rest inductionHypothesis =>
    obtain ⟨other, reading⟩ := first
    have below : ∀ entry ∈ rest, other < entry.1 := (List.pairwise_cons.1 ordered).1
    have tail : NameOrdered rest := (List.pairwise_cons.1 ordered).2
    simp only [insertReading]
    by_cases before : name < other
    · rw [if_pos before]
      refine List.pairwise_cons.2 ⟨?_, ordered⟩
      intro entry member
      rcases List.mem_cons.1 member with rfl | within
      · exact before
      · exact String.lt_trans before (below entry within)
    · rw [if_neg before]
      by_cases replaced : name = other
      · subst replaced
        rw [if_pos rfl]
        exact List.pairwise_cons.2 ⟨below, tail⟩
      · rw [if_neg replaced]
        refine List.pairwise_cons.2 ⟨?_, inductionHypothesis tail⟩
        intro entry member
        rcases fst_mem_insertReading member with same | ⟨former, within, same⟩
        · have after : other < name := by
            rcases Decidable.em (other < name) with after | notAfter
            · exact after
            · exact absurd (String.le_antisymm notAfter before) replaced
          simpa [same] using after
        · simpa [same] using below former within

/-- Every channel's reading at one tick, in the order of the names. -/
structure Snapshot where
  /-- How many ticks had been made; zero before the first. -/
  tick : Nat
  readings : List (String × Float)
  ordered : NameOrdered readings

namespace Snapshot

/-- A snapshot without readings. -/
def empty (tick : Nat) : Snapshot := ⟨tick, [], List.Pairwise.nil⟩

/-- Set one reading. -/
def insert (snapshot : Snapshot) (name : String) (value : Float) : Snapshot :=
  ⟨snapshot.tick, insertReading name value snapshot.readings,
    nameOrdered_insertReading snapshot.ordered⟩

/-- Collect pairs; of two with one name the later counts. -/
def ofPairs (tick : Nat) (pairs : List (String × Float)) : Snapshot :=
  pairs.foldl (fun snapshot pair => snapshot.insert pair.1 pair.2) (empty tick)

/-- The reading of a channel, if the snapshot has it. -/
def get? (snapshot : Snapshot) (name : String) : Option Float := snapshot.readings.lookup name

/-- Whether the snapshot has a reading of the channel. -/
def contains (snapshot : Snapshot) (name : String) : Bool := (snapshot.get? name).isSome

/-- How many channels the snapshot covers. -/
def size (snapshot : Snapshot) : Nat := snapshot.readings.length

/-- Two snapshots are equal when ticks and names agree and readings compare
equal as numbers. So a snapshot with a NaN differs from itself. -/
instance : BEq Snapshot :=
  ⟨fun left right => left.tick == right.tick && left.readings == right.readings⟩

end Snapshot

end Telemetry
