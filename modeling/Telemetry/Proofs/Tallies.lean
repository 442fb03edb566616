import Telemetry.Metering.RunMetrics
import Telemetry.Proofs.SnapshotReadings

/-!
# Families as tallies

A family answers for a set of labels with what was last done under their key.
Counts are kept in words that wrap. So a family of counts that is increased once
for each member of a list tells, for each possible member, how often it stands
in the list, up to a multiple of the size of a word. This needs no more than
that different members have labels with different keys. Where the count fits in
a word, it is exact.
-/
namespace Telemetry.Metering

/-- Touching a key changes its value and no other. A key that was not there
begins with the initial value and is changed once. -/
theorem lookup_touch {α : Type} (key other : Key) (initial : α) (change : α → α)
    (entries : List (Key × α)) :
    (touch key initial change entries).lookup other =
      if other = key then some (change ((entries.lookup key).getD initial))
      else entries.lookup other := by
  induction entries with
  | nil => exact lookup_cons_eq key other (change initial) []
  | cons entry rest inductionHypothesis =>
    obtain ⟨former, value⟩ := entry
    by_cases found : former = key
    · subst found
      rw [touch, if_pos rfl]
      by_cases same : other = former <;>
        simp only [lookup_cons_eq, same, ↓reduceIte, Option.getD_some]
    · rw [touch, if_neg found]
      by_cases same : other = key
      · have apart : ¬ other = former := fun atFormer => found (atFormer.symm.trans same)
        subst same
        simp only [lookup_cons_eq, inductionHypothesis, apart, ↓reduceIte]
      · simp only [lookup_cons_eq, inductionHypothesis, same, ↓reduceIte]

/-- Touching a key stores it, once: a stored key keeps its place, and a new one
comes last. -/
theorem keys_touch {α : Type} (key : Key) (initial : α) (change : α → α)
    (entries : List (Key × α)) :
    (touch key initial change entries).map Prod.fst =
      if key ∈ entries.map Prod.fst then entries.map Prod.fst
      else entries.map Prod.fst ++ [key] := by
  induction entries with
  | nil => rfl
  | cons entry rest inductionHypothesis =>
    obtain ⟨former, value⟩ := entry
    by_cases found : former = key
    · simp [touch, found]
    · rw [touch, if_neg found, List.map_cons, inductionHypothesis]
      have other : ¬ key = former := fun same => found same.symm
      by_cases later : key ∈ rest.map Prod.fst
      · simp only [List.map_cons, List.mem_cons, later, or_true, ↓reduceIte]
      · simp only [List.map_cons, List.mem_cons, later, other, or_self, ↓reduceIte,
          List.cons_append]

/-- One label is a key, there being nothing to sort. -/
@[simp] theorem Key.ofLabels_singleton (label : Label) : ofLabels [label] = [label] :=
  List.mergeSort_singleton label

/-- Two labels whose names are in order are a key, since sorting leaves a sorted
list as it is. -/
theorem Key.ofLabels_pair {first second : Label} (ordered : first.1 < second.1) :
    ofLabels [first, second] = [first, second] := by
  have inOrder : Label.le first second = true := decide_eq_true (.inl ordered)
  exact List.mergeSort_of_pairwise (List.pairwise_pair.mpr inOrder)

namespace Family

variable {α : Type}

/-- A change made under some labels shows under all labels of the same key, in
whatever order they are given, and under no others. -/
theorem get?_update (family : Family α) (labels other : List Label) (initial : α)
    (change : α → α) :
    (family.update labels initial change).get? other =
      if Key.ofLabels other = Key.ofLabels labels then
        some (change ((family.get? labels).getD initial))
      else family.get? other :=
  lookup_touch ..

/-- A change stores the key of its labels and no other key, and keeps the order
in which keys were first touched. -/
theorem keys_update (family : Family α) (labels : List Label) (initial : α) (change : α → α) :
    (family.update labels initial change).entries.map Prod.fst =
      if Key.ofLabels labels ∈ family.entries.map Prod.fst then family.entries.map Prod.fst
      else family.entries.map Prod.fst ++ [Key.ofLabels labels] :=
  keys_touch ..

/-- After any changes, the stored keys are those that were touched, each of them
once. The induction adds one change at the end, as the fold does. -/
theorem keys_foldl {β : Type} (initial : β → α) (change : β → α → α)
    (asked : List (List Label × β)) :
    let family : Family α := asked.foldl
      (fun family call => family.update call.1 (initial call.2) (change call.2)) {}
    (family.entries.map Prod.fst).Nodup ∧
      ∀ key, key ∈ family.entries.map Prod.fst ↔
        key ∈ asked.map fun call => Key.ofLabels call.1 := by
  induction asked using List.reverseRecOn with
  | nil => exact ⟨List.nodup_nil, fun _ => Iff.rfl⟩
  | append_singleton former call inductionHypothesis =>
    obtain ⟨distinct, touched⟩ := inductionHypothesis
    simp only [List.foldl_concat, keys_update, List.map_append, List.map_singleton,
      List.mem_append, List.mem_singleton]
    by_cases stored : Key.ofLabels call.1 ∈ (former.foldl (fun (family : Family α) call =>
        family.update call.1 (initial call.2) (change call.2)) {}).entries.map Prod.fst
    · rw [if_pos stored]
      refine ⟨distinct, fun key => ?_⟩
      rw [touched]
      constructor
      · exact .inl
      · rintro (before | rfl)
        · exact before
        · exact (touched _).mp stored
    · rw [if_neg stored]
      constructor
      · rw [← List.concat_eq_append]
        exact List.Nodup.concat stored distinct
      · intro key
        rw [List.mem_append, List.mem_singleton, touched]

end Family

/-- A count grows by one, and the others stay. A count that was never touched
reads zero, which is also where it starts. -/
theorem Counters.get_increment (counters : Counters) (labels other : List Label) :
    (counters.increment labels).get other =
      if Key.ofLabels other = Key.ofLabels labels then counters.get labels + 1
      else counters.get other := by
  unfold increment add get
  rw [Family.get?_update]
  split <;> rfl

/-- A duration more is one more duration, whether or not the histogram of these
labels was there before. -/
theorem Histograms.count_observe (histograms : Histograms) (labels : List Label) (span : Span) :
    (histograms.observe labels span).count labels = histograms.count labels + 1 := by
  unfold observe count
  rw [Family.get?_update, if_pos rfl]
  cases histograms.get? labels <;> rfl

/-- A gauge shows what was set, and the others stay. Nothing of its former
reading is left. -/
theorem Gauges.get?_set (gauges : Gauges) (labels other : List Label) (reading : Float) :
    (gauges.set labels reading).get? other =
      if Key.ofLabels other = Key.ofLabels labels then some reading else gauges.get? other := by
  unfold set
  rw [Family.get?_update]

/-- Setting the gauge of each of some names leaves every other gauge, for two
names are never one label. -/
theorem Gauges.get?_setAll_of_not_mem {readings : List (String × Float)} {name : String}
    (absent : name ∉ readings.map Prod.fst) (label : String) (gauges : Gauges) :
    (readings.foldl (fun gauges (other, reading) => gauges.set [(label, other)] reading)
      gauges).get? [(label, name)] = gauges.get? [(label, name)] := by
  induction readings generalizing gauges with
  | nil => rfl
  | cons first rest inductionHypothesis =>
    rw [List.map_cons, List.mem_cons, not_or] at absent
    rw [List.foldl_cons, inductionHypothesis absent.2, get?_set, if_neg]
    simpa using absent.1

/-- Setting the gauge of each of some distinct names shows the reading of each,
because nothing that is set later has the same name. -/
theorem Gauges.get?_setAll {readings : List (String × Float)}
    (distinct : (readings.map Prod.fst).Nodup) {name : String} {reading : Float}
    (member : (name, reading) ∈ readings) (label : String) (gauges : Gauges) :
    (readings.foldl (fun gauges (other, reading) => gauges.set [(label, other)] reading)
      gauges).get? [(label, name)] = some reading := by
  induction readings generalizing gauges with
  | nil => exact nomatch member
  | cons first rest inductionHypothesis =>
    obtain ⟨fresh, restDistinct⟩ := List.nodup_cons.mp distinct
    rcases List.mem_cons.mp member with rfl | later
    · rw [List.foldl_cons, get?_setAll_of_not_mem fresh, get?_set, if_pos rfl]
    · exact inductionHypothesis restDistinct later _

namespace Counters

variable {α : Type} [BEq α] {label : α → List Label} {counters : Counters} {noted : List α}

/-- The counts tell how often each possible member stands in a list, as far as a
word can tell. -/
def Tallies (counters : Counters) (label : α → List Label) (noted : List α) : Prop :=
  ∀ member, counters.get (label member) = UInt64.ofNat (noted.count member)

/-- Counts that were never touched tally the empty list. -/
theorem tallies_empty (label : α → List Label) : Tallies {} label [] := fun _ => rfl

/-- A count that fits in a word is exact, since no multiple of the size of a
word can have been lost. -/
theorem Tallies.toNat_get (tallies : counters.Tallies label noted) {member : α}
    (fits : noted.count member < UInt64.size) :
    (counters.get (label member)).toNat = noted.count member := by
  rw [tallies]
  exact UInt64.toNat_ofNat_of_lt' fits

/-- Labels by which different members cannot be confused. -/
def Separates (label : α → List Label) : Prop :=
  ∀ first second, Key.ofLabels (label first) = Key.ofLabels (label second) → first = second

variable [LawfulBEq α]

/-- Increasing the count of a member tallies the list with the member at its
end. Other members have other keys, so that their counts stay. -/
theorem tallies_increment (separates : Separates label) (tallies : counters.Tallies label noted)
    (member : α) : (counters.increment (label member)).Tallies label (noted ++ [member]) := by
  intro other
  rw [get_increment, List.count_append, List.count_singleton]
  by_cases same : other = member
  · subst same
    rw [if_pos rfl, tallies, beq_self_eq_true, if_pos rfl, UInt64.ofNat_add]
    rfl
  · rw [if_neg fun key => same (separates other member key), tallies,
      if_neg (by simpa using Ne.symm same), Nat.add_zero]

/-- Increasing the count of every member of a list tallies the list, each of
them adding itself to what was noted before. -/
theorem tallies_all (separates : Separates label) (tallies : counters.Tallies label noted)
    (members : List α) :
    (members.foldl (fun counters member => counters.increment (label member)) counters).Tallies
      label (noted ++ members) := by
  induction members generalizing counters noted with
  | nil =>
    rw [List.append_nil]
    exact tallies
  | cons member rest inductionHypothesis =>
    have further := inductionHypothesis (tallies_increment separates tallies member)
    rw [List.append_assoc] at further
    exact further

end Counters

end Telemetry.Metering
