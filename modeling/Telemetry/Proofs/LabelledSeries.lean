import Mathlib.Algebra.GroupWithZero.Nat
import Mathlib.Data.Prod.Lex
import Mathlib.Data.String.Basic
import Telemetry.Proofs.ExpositionReading

/-!
# Series are told apart by the multiset of their labels

Labels may be given in any order, and a name may stand among them more than
once. Sorting is a normal form for them: two lists of labels have one key
exactly when the one is a permutation of the other. So a family holds under some
labels what the calls made with a permutation of these labels have left, one
after another, as if no other call had ever been made. For counts that is a sum,
which wraps at the size of a word; for readings it is the last one.
-/
namespace Telemetry.Metering

/-- Labels are ordered as pairs are, the name before the value. So the order is
linear, which sorting needs for its result to be unique. -/
theorem Label.le_iff_toLex (left right : Label) :
    Label.le left right = true ↔ toLex left ≤ toLex right := by
  rw [Label.le, decide_eq_true_iff, Prod.Lex.toLex_le_toLex, String.not_lt]

/-- Two lists of labels have the same key exactly when they are the same but for
their order: a key is sorted, and a list has one sorted permutation. -/
theorem Key.ofLabels_eq_iff_perm (labels other : List Label) :
    ofLabels labels = ofLabels other ↔ labels.Perm other := by
  have sorted (labels : List Label) :
      (ofLabels labels).Pairwise fun left right => Label.le left right = true := by
    apply List.pairwise_mergeSort
    · intro first second third
      simp only [Label.le_iff_toLex]
      exact le_trans
    · intro first second
      simp only [Bool.or_eq_true, Label.le_iff_toLex]
      exact le_total _ _
  have kept (labels : List Label) : (ofLabels labels).Perm labels :=
    List.mergeSort_perm labels Label.le
  constructor
  · intro same
    exact (kept labels).symm.trans (same ▸ kept other)
  · intro reordered
    refine List.Perm.eq_of_pairwise ?_ (sorted labels) (sorted other)
      ((kept labels).trans (reordered.trans (kept other).symm))
    intro left right _ _
    simp only [Label.le_iff_toLex]
    intro before behind
    exact toLex.injective (le_antisymm before behind)

/-- Of what was asked under labels, the part that concerns some of them: all
that was asked under one of their permutations, in order. -/
def under {β : Type} (labels : List Label) (asked : List (List Label × β)) : List β :=
  (asked.filter fun call => call.1.Perm labels).map Prod.snd

section Under

variable {β : Type} (labels : List Label)

/-- The first call concerns some labels if it was made under one of their
permutations. -/
theorem under_cons (call : List Label × β) (rest : List (List Label × β)) :
    under labels (call :: rest) =
      if call.1.Perm labels then call.2 :: under labels rest else under labels rest := by
  by_cases own : call.1.Perm labels <;> simp [under, own]

/-- No more calls concern some labels than were made. -/
theorem length_under_le (asked : List (List Label × β)) :
    (under labels asked).length ≤ asked.length := by
  rw [under, List.length_map]
  exact List.length_filter_le _ _

end Under

/-- What a family holds under some labels after a history of changes is what the
changes made under their permutations have left there. -/
theorem Family.get?_foldl {α β : Type} (initial : β → α) (change : β → α → α)
    (asked : List (List Label × β)) (family : Family α) (labels : List Label) :
    (asked.foldl (fun family call => family.update call.1 (initial call.2) (change call.2))
        family).get? labels =
      (under labels asked).foldl (fun held call => some (change call (held.getD (initial call))))
        (family.get? labels) := by
  induction asked generalizing family with
  | nil => rfl
  | cons call rest inductionHypothesis =>
    rw [List.foldl_cons, inductionHypothesis, Family.get?_update, under_cons]
    by_cases own : call.1.Perm labels
    · have sameKey : Key.ofLabels labels = Key.ofLabels call.1 :=
        (Key.ofLabels_eq_iff_perm labels call.1).mpr own.symm
      have sameValue : family.get? call.1 = family.get? labels := by
        rw [Family.get?, ← sameKey]
        rfl
      rw [if_pos sameKey, if_pos own, sameValue, List.foldl_cons]
    · have otherKey : ¬ Key.ofLabels labels = Key.ofLabels call.1 := fun same =>
        own ((Key.ofLabels_eq_iff_perm labels call.1).mp same).symm
      rw [if_neg otherKey, if_neg own]

namespace Counters

/-- Amounts added to a word one after another: their sum, as far as the word can
hold it. Wrapping at each addition and wrapping once at the end are the same. -/
theorem toNat_getD_foldl (amounts : List UInt64) (held : Option UInt64) :
    ((amounts.foldl (fun held amount => some (held.getD 0 + amount)) held).getD 0).toNat =
      ((held.getD 0).toNat + (amounts.map UInt64.toNat).sum) % UInt64.size := by
  induction amounts generalizing held with
  | nil => exact (Nat.mod_eq_of_lt (UInt64.toNat_lt_size _)).symm
  | cons amount rest inductionHypothesis =>
    rw [List.foldl_cons, inductionHypothesis, Option.getD_some, UInt64.toNat_add,
      List.map_cons, List.sum_cons, ← Nat.add_assoc]
    exact Nat.mod_add_mod _ _ _

/-- A count is the sum of what was added under its labels, in whatever order
they were given, and of nothing that was added under others. -/
theorem toNat_get_ofAdditions (additions : List (List Label × UInt64)) (labels : List Label) :
    ((ofAdditions additions).get labels).toNat =
      ((under labels additions).map UInt64.toNat).sum % UInt64.size := by
  have held := Family.get?_foldl (fun _ => 0) (fun amount count => count + amount) additions
    ({} : Counters) labels
  have added := toNat_getD_foldl (under labels additions) none
  rw [Option.getD_none, UInt64.toNat_zero, Nat.zero_add] at added
  rw [← added]
  exact congrArg (fun held : Option UInt64 => (held.getD 0).toNat) held

end Counters

namespace Gauges

/-- What was shown under labels, by settings one after another. -/
def ofSettings (settings : List (List Label × Float)) : Gauges :=
  settings.foldl (fun gauges (labels, reading) => gauges.set labels reading) {}

/-- A gauge shows the last reading that was set under its labels, in whatever
order they were given. -/
theorem get?_ofSettings (settings : List (List Label × Float)) (labels : List Label) :
    (ofSettings settings).get? labels = (under labels settings).getLast? := by
  have held := Family.get?_foldl (fun reading => reading) (fun reading _ => reading) settings
    ({} : Gauges) labels
  have last (readings : List Float) :
      readings.foldl (fun _ reading => some reading) none = readings.getLast? := by
    induction readings using List.reverseRecOn with
    | nil => rfl
    | append_singleton former reading _ => rw [List.foldl_concat, List.getLast?_concat]
  exact held.trans (last _)

end Gauges

/-- A family of counts and a family of readings. -/
structure Meters where
  counters : Counters := {}
  gauges : Gauges := {}

namespace Meters

/-- A call on one of the families. -/
inductive Call where
  | add (labels : List Label) (amount : UInt64)
  | increment (labels : List Label)
  | set (labels : List Label) (reading : Float)

namespace Call

/-- The labels that a call is made with. -/
def labels : Call → List Label
  | add labels _ | increment labels | set labels _ => labels

/-- What a call adds, and under which labels. -/
def addition? : Call → Option (List Label × UInt64)
  | add labels amount => some (labels, amount)
  | increment labels => some (labels, 1)
  | set _ _ => none

/-- What a call sets, and under which labels. -/
def setting? : Call → Option (List Label × Float)
  | set labels reading => some (labels, reading)
  | add _ _ | increment _ => none

end Call

/-- The families after a call. -/
def perform (meters : Meters) : Call → Meters
  | .add labels amount => { meters with counters := meters.counters.add labels amount }
  | .increment labels => { meters with counters := meters.counters.increment labels }
  | .set labels reading => { meters with gauges := meters.gauges.set labels reading }

/-- The families after calls made one after another. -/
def run (calls : List Call) : Meters := calls.foldl perform {}

/-- Each family takes part in the calls that are made on it, and leaves those
made on the other. -/
theorem run_eq (calls : List Call) :
    run calls = ⟨.ofAdditions (calls.filterMap Call.addition?),
      .ofSettings (calls.filterMap Call.setting?)⟩ := by
  induction calls using List.reverseRecOn with
  | nil => rfl
  | append_singleton former call inductionHypothesis =>
    have step : run (former ++ [call]) = (run former).perform call := List.foldl_concat ..
    rw [step, inductionHypothesis]
    cases call <;>
      simp [perform, Call.addition?, Call.setting?, List.filterMap_cons, Counters.ofAdditions,
        Gauges.ofSettings, Counters.increment]

/-- Calls under other labels can be left out before looking at what concerns
some labels, since they would be left out then. -/
theorem under_filterMap {β : Type} {asked? : Call → Option (List Label × β)}
    (own : ∀ call asked, asked? call = some asked → asked.1 = call.labels) (labels : List Label)
    (calls : List Call) :
    under labels ((calls.filter fun call => call.labels.Perm labels).filterMap asked?) =
      under labels (calls.filterMap asked?) := by
  induction calls with
  | nil => rfl
  | cons call rest inductionHypothesis =>
    cases asks : asked? call with
    | none =>
      rw [List.filterMap_cons_none asks, ← inductionHypothesis, List.filter_cons]
      split
      · rw [List.filterMap_cons_none asks]
      · rfl
    | some asked =>
      have made : asked.1 = call.labels := own call asked asks
      rw [List.filterMap_cons_some asks, under_cons, ← inductionHypothesis, List.filter_cons]
      by_cases concerned : call.labels.Perm labels
      · rw [if_pos (decide_eq_true concerned), List.filterMap_cons_some asks, under_cons]
      · rw [if_neg (by simpa using concerned), if_neg (made ▸ concerned)]

/-- Whatever calls were made, a count is the sum of the amounts that were added
under a permutation of its labels, up to the size of a word, and a gauge shows
the last reading that was set under a permutation of its labels. Two histories
that differ only in calls under other labels agree on both.

Labels have the same key exactly when they are permutations of each other, so
every other call passes the series by. -/
theorem addressed_by_multiset (calls : List Call) (labels : List Label) :
    let meters := run calls
    (meters.counters.get labels).toNat =
        ((under labels (calls.filterMap Call.addition?)).map UInt64.toNat).sum % UInt64.size ∧
      meters.gauges.get? labels = (under labels (calls.filterMap Call.setting?)).getLast? ∧
      ∀ others : List Call,
        (others.filter fun call => call.labels.Perm labels) =
            calls.filter (fun call => call.labels.Perm labels) →
          (run others).counters.get labels = meters.counters.get labels ∧
            (run others).gauges.get? labels = meters.gauges.get? labels := by
  intro meters
  have counted (calls : List Call) :
      ((run calls).counters.get labels).toNat =
        ((under labels (calls.filterMap Call.addition?)).map UInt64.toNat).sum % UInt64.size := by
    rw [run_eq]
    exact Counters.toNat_get_ofAdditions _ labels
  have shown (calls : List Call) :
      (run calls).gauges.get? labels =
        (under labels (calls.filterMap Call.setting?)).getLast? := by
    rw [run_eq]
    exact Gauges.get?_ofSettings _ labels
  refine ⟨counted calls, shown calls, ?_⟩
  intro others same
  have ownAddition : ∀ call asked, Call.addition? call = some asked → asked.1 = call.labels := by
    rintro (_ | _ | _) asked ⟨⟩ <;> rfl
  have ownSetting : ∀ call asked, Call.setting? call = some asked → asked.1 = call.labels := by
    rintro (_ | _ | _) asked ⟨⟩
    rfl
  constructor
  · apply UInt64.toNat_inj.mp
    rw [counted, counted, ← under_filterMap ownAddition, same, under_filterMap ownAddition]
  · rw [shown, shown, ← under_filterMap ownSetting, same, under_filterMap ownSetting]

end Meters

end Telemetry.Metering
