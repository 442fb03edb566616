import Mathlib.Data.List.Induction
import Mathlib.Data.List.Nodup
import Telemetry.Snapshot

/-!
# What a snapshot reads

A snapshot is built by putting readings into an ordered list one after another.
Reading a name after one insertion yields the inserted value for that name and
leaves every other name alone, wherever the insertion landed. So a snapshot
collected from pairs reads, for each name, the value of the last pair that has
it.

Because the order of the names is strict, a reading is in the list exactly when
it is what its name reads. Reading through the list and reading by name are
therefore the same view of a snapshot.
-/
namespace Telemetry

/-- The first entry answers for its own name; any other name is looked up behind
it. The search compares names with `==`, and this is where the comparison
becomes an equation. -/
theorem lookup_cons_eq {κ α : Type} [BEq κ] [LawfulBEq κ] [DecidableEq κ] (key name : κ)
    (value : α) (rest : List (κ × α)) :
    ((key, value) :: rest).lookup name =
      if name = key then some value else rest.lookup name := by
  by_cases same : name = key
  · simp [same]
  · simp [List.lookup_cons, beq_false_of_ne same, same]

/-- What is found under a name is the first of its entries, since the search
passes over the entries of all other names and stops at the first of its own. -/
theorem lookup_eq_head? {α : Type} (entries : List (String × α)) (name : String) :
    entries.lookup name = (entries.filter fun entry => entry.1 = name).head?.map Prod.snd := by
  induction entries with
  | nil => rfl
  | cons entry rest inductionHypothesis =>
    obtain ⟨key, value⟩ := entry
    rw [lookup_cons_eq, inductionHypothesis]
    by_cases same : name = key
    · simp [same]
    · simp [same, Ne.symm same]

/-- Insertion changes what one name reads, and only that one, wherever it lands:
a new entry stands alone in its name, and an old one of the name has been
replaced. -/
theorem lookup_insertReading (name other : String) (value : Float)
    (readings : List (String × Float)) :
    (insertReading name value readings).lookup other =
      if other = name then some value else readings.lookup other := by
  induction readings with
  | nil => simp only [insertReading, lookup_cons_eq]
  | cons first rest inductionHypothesis =>
    obtain ⟨key, reading⟩ := first
    simp only [insertReading]
    by_cases before : name < key
    · rw [if_pos before, lookup_cons_eq]
    · rw [if_neg before]
      by_cases replaced : name = key
      · subst replaced
        by_cases same : other = name <;> simp only [lookup_cons_eq, same, ↓reduceIte]
      · rw [if_neg replaced]
        simp only [lookup_cons_eq, inductionHypothesis]
        by_cases atKey : other = key
        · have apart : ¬ other = name := fun same => replaced (same.symm.trans atKey)
          simp only [atKey, ↓reduceIte, if_neg (atKey ▸ apart)]
        · simp only [atKey, ↓reduceIte]

/-- Where no name repeats, a lookup finds exactly what the list holds. An entry
further back cannot be hidden, since whatever hid it would have its name. -/
theorem lookup_eq_some_iff_mem {κ α : Type} [BEq κ] [LawfulBEq κ] [DecidableEq κ]
    {readings : List (κ × α)} (distinct : (readings.map Prod.fst).Nodup) (name : κ) (value : α) :
    readings.lookup name = some value ↔ (name, value) ∈ readings := by
  induction readings with
  | nil => simp
  | cons first rest inductionHypothesis =>
    obtain ⟨key, reading⟩ := first
    obtain ⟨fresh, restDistinct⟩ := List.nodup_cons.mp distinct
    rw [lookup_cons_eq, List.mem_cons, Prod.mk.injEq]
    by_cases same : name = key
    · subst same
      have absent : (name, value) ∉ rest := fun member =>
        fresh (List.mem_map.mpr ⟨_, member, rfl⟩)
      simp only [↓reduceIte, Option.some.injEq, true_and, absent, or_false]
      exact eq_comm
    · simp only [same, ↓reduceIte, false_and, false_or]
      exact inductionHypothesis restDistinct

/-- Where no name repeats, a search by name finds exactly the entry that has it:
what the search stops at has the name, and two entries of one name would be one
entry. -/
theorem find?_eq_some_iff_mem {α : Type} {name : α → String} {entries : List α}
    (distinct : (entries.map name).Nodup) (wanted : String) (entry : α) :
    (entries.find? fun other => name other = wanted) = some entry ↔
      entry ∈ entries ∧ name entry = wanted := by
  constructor
  · intro found
    exact ⟨List.mem_of_find?_eq_some found, by simpa using List.find?_some found⟩
  · rintro ⟨member, rfl⟩
    have present : (entries.find? fun other => name other = name entry).isSome = true :=
      List.find?_isSome.mpr ⟨entry, member, decide_eq_true rfl⟩
    obtain ⟨first, found⟩ := Option.isSome_iff_exists.mp present
    have named : name first = name entry := by simpa using List.find?_some found
    rw [found, List.inj_on_of_nodup_map distinct (List.mem_of_find?_eq_some found) member named]

namespace Snapshot

/-- A snapshot into which a value is put reads that value under its name and is
otherwise unchanged. It is the fact about insertion, seen through the
snapshot. -/
theorem get?_insert (snapshot : Snapshot) (name other : String) (value : Float) :
    (snapshot.insert name value).get? other =
      if other = name then some value else snapshot.get? other :=
  lookup_insertReading name other value snapshot.readings

/-- A snapshot carries the tick that it was taken at, for no insertion of a
reading touches it. -/
theorem tick_ofPairs (tick : Nat) (pairs : List (String × Float)) :
    (ofPairs tick pairs).tick = tick :=
  List.foldlRecOn (motive := fun snapshot : Snapshot => snapshot.tick = tick) pairs
    (fun snapshot pair => snapshot.insert pair.1 pair.2) rfl fun _ held _ _ => held

/-- A snapshot collected from pairs reads the last pair of each name. Each
insertion overwrites, so a search that begins at the last pair finds what was
left standing. -/
theorem get?_ofPairs (tick : Nat) (pairs : List (String × Float)) (name : String) :
    (ofPairs tick pairs).get? name = pairs.reverse.lookup name := by
  -- Collecting runs from the front, so the list is taken apart at its end.
  induction pairs using List.reverseRecOn with
  | nil => rfl
  | append_singleton front last inductionHypothesis =>
    have collected : ofPairs tick (front ++ [last]) =
        (ofPairs tick front).insert last.1 last.2 := by
      simp [ofPairs]
    rw [collected, get?_insert, inductionHypothesis, List.reverse_append]
    exact (lookup_cons_eq last.1 name last.2 front.reverse).symm

/-- Where no name repeats, a snapshot reads exactly the pairs it was collected
from, because no pair has overwritten another. -/
theorem get?_ofPairs_iff {tick : Nat} {pairs : List (String × Float)}
    (distinct : (pairs.map Prod.fst).Nodup) (name : String) (value : Float) :
    (ofPairs tick pairs).get? name = some value ↔ (name, value) ∈ pairs := by
  have reversed : (pairs.reverse.map Prod.fst).Nodup := by
    rw [List.map_reverse]
    exact List.nodup_reverse.mpr distinct
  rw [get?_ofPairs, lookup_eq_some_iff_mem reversed, List.mem_reverse]

/-- No name stands twice in a snapshot: its names are strictly increasing, and
no name stands before itself. -/
theorem names_nodup (snapshot : Snapshot) : (snapshot.readings.map Prod.fst).Nodup := by
  rw [List.Nodup, List.pairwise_map]
  refine snapshot.ordered.imp ?_
  intro first second before same
  rw [same] at before
  exact String.lt_irrefl _ before

/-- A reading is listed exactly when it is what its name reads. The names of a
snapshot are distinct, so nothing that is listed is out of reach of a lookup. -/
theorem mem_readings_iff (snapshot : Snapshot) (name : String) (value : Float) :
    (name, value) ∈ snapshot.readings ↔ snapshot.get? name = some value :=
  (lookup_eq_some_iff_mem snapshot.names_nodup name value).symm

/-- A snapshot covers exactly the channels that it lists, for a name that reads
something reads an entry of the list, and an entry is what its name reads. -/
theorem contains_iff (snapshot : Snapshot) (name : String) :
    snapshot.contains name = true ↔ name ∈ snapshot.readings.map Prod.fst := by
  rw [contains, Option.isSome_iff_exists, List.mem_map]
  constructor
  · rintro ⟨value, read⟩
    exact ⟨(name, value), (snapshot.mem_readings_iff name value).mpr read, rfl⟩
  · rintro ⟨⟨_, value⟩, listed, rfl⟩
    exact ⟨value, (snapshot.mem_readings_iff _ value).mp listed⟩

end Snapshot

end Telemetry
