import Mathlib.Data.List.Nodup
import Telemetry.Event
import Telemetry.Proofs.RuleEdges

/-!
# What an engine has handed out adds up to what it holds

Two books can be kept from outside on what an engine hands out: one with a line
for each transition, by rule and direction, and one with a line for each metric
without a number, by derivation. The engine keeps its own: a flag for each rule,
and the number of numbers that each derivation has yielded.

The books agree. A rule that is active has been set off once more than it has
been cleared, and any other as often. A derivation has yielded a number or
nothing each time it was evaluated. Names not yet registered stand in neither
book, so registering one starts it at nothing on both sides.
-/
namespace Telemetry

/-- The rule and the direction of a transition. -/
def Transition.label (transition : Transition) : String × Edge :=
  (transition.rule.name, transition.edge)

/-- The names of the metrics without a number. -/
def Metrics.undefined (metrics : Metrics) : List String :=
  (metrics.metrics.filter fun metric => metric.value.undefined?.isSome).map Metric.name

namespace Event

/-- The rule and the direction of the transition that an event carries. -/
def moved : Event → List (String × Edge)
  | threshold transition => [transition.label]
  | _ => []

/-- The names of the metrics without a number that an event carries. -/
def undefined : Event → List String
  | derived metrics => metrics.undefined
  | _ => []

/-- The severity of the alert that an event carries. -/
def severities : Event → List Severity
  | .alert raised => [raised.severity]
  | _ => []

/-- The readings that an event carries. -/
def snapshots : Event → List Snapshot
  | tick snapshot => [snapshot]
  | _ => []

end Event

/-- How many numbers a derivation has yielded. -/
def Derivation.yielded (derivation : Derivation) : Nat :=
  (derivation.previous.map Metric.samples).getD 0

/-- A value is a number or undefined, and not both, so that counting the one
kind counts the other. -/
theorem Value.isSome_undefined? (value : Value) : value.undefined?.isSome = !value.isNumber := by
  cases value <;> rfl

/-- A formula is shown how many numbers its derivation has yielded, whatever the
snapshot and the declared channels. -/
theorem Derivation.samples_view (derivation : Derivation) (snapshot : Snapshot)
    (declared : List String) :
    (Context.view snapshot declared derivation.previous).samples = derivation.yielded := by
  unfold Context.samples Derivation.yielded Context.view
  cases derivation.previous <;> rfl

/-- An evaluation that yields a number is counted, and no other. The count is
taken from the previous metric and written into the next one. -/
theorem Derivation.yielded_remember (derivation : Derivation) (snapshot : Snapshot) :
    (derivation.remember snapshot).yielded =
      if (derivation.evaluate snapshot).value.isNumber then derivation.yielded + 1
      else derivation.yielded := by
  rw [← derivation.samples_view snapshot derivation.dependsOn]
  rfl

/-- An evaluation that yields a number holds it, and every other holds on to the
last one that was yielded. -/
theorem Derivation.lastNumber_evaluate (derivation : Derivation) (snapshot : Snapshot) :
    (derivation.evaluate snapshot).lastNumber =
      ((derivation.evaluate snapshot).value.number? <|>
        derivation.previous.bind Metric.lastNumber) := rfl

namespace Engine

/-- A flag that is asked for by name is that of a rule with this name, for the
search that answers stops at such a rule. -/
theorem watch_of_isActive {engine : Engine} {name : String} {active : Bool}
    (known : engine.isActive name = .ok active) :
    ∃ watch ∈ engine.watches, watch.rule.name = name ∧ watch.active = active := by
  unfold isActive at known
  split at known
  case h_1 watch found =>
    refine ⟨watch, List.mem_of_find?_eq_some found, ?_, Except.ok.inj known⟩
    simpa using List.find?_some found
  case h_2 => exact nomatch known

/-- What is asked for by name was yielded by a derivation with this name.
Nothing is assumed about the names, so there might be others that have it. -/
theorem derivation_of_previous {engine : Engine} {name : String} {previous : Option Metric}
    (known : engine.previous name = .ok previous) :
    ∃ derivation ∈ engine.derivations,
      derivation.name = name ∧ derivation.previous = previous := by
  unfold Engine.previous derivation at known
  split at known
  case h_1 derivation found =>
    refine ⟨derivation, List.mem_of_find?_eq_some found, ?_, Except.ok.inj known⟩
    simpa using List.find?_some found
  case h_2 => exact nomatch known

section Rules

variable {moved : List (String × Edge)} {watches : List Watch}

/-- The lines of transitions balance with the flags. -/
structure Balanced (moved : List (String × Edge)) (watches : List Watch) : Prop where
  distinct : (watches.map fun watch => watch.rule.name).Nodup
  flags : ∀ watch ∈ watches,
    moved.count (watch.rule.name, .active) =
      moved.count (watch.rule.name, .cleared) + watch.active.toNat
  others : ∀ name, (∀ watch ∈ watches, watch.rule.name ≠ name) → ∀ edge, (name, edge) ∉ moved

/-- Without rules there are no flags to balance and no lines to account for. -/
theorem balanced_nil : Balanced [] [] where
  distinct := List.nodup_nil
  flags := fun _ member => nomatch member
  others := fun _ _ _ member => nomatch member

/-- A new rule is inactive, and nothing was noted for it: its name was no rule's
before, and transitions are noted only for rules that are there. -/
theorem balanced_register (balanced : Balanced moved watches) {rule : Rule}
    (fresh : ∀ watch ∈ watches, watch.rule.name ≠ rule.name) :
    Balanced moved (watches ++ [⟨rule, false⟩]) where
  distinct := by
    rw [List.map_append, List.map_singleton, ← List.concat_eq_append]
    refine List.Nodup.concat ?_ balanced.distinct
    intro member
    obtain ⟨watch, within, same⟩ := List.mem_map.mp member
    exact fresh watch within same
  flags := by
    intro watch member
    rcases List.mem_append.mp member with former | new
    · exact balanced.flags watch former
    · rw [List.mem_singleton] at new
      subst new
      have unnoted := balanced.others rule.name fresh
      rw [List.count_eq_zero_of_not_mem (unnoted .active),
        List.count_eq_zero_of_not_mem (unnoted .cleared)]
      rfl
  others := by
    intro name absent
    exact balanced.others name fun watch member =>
      absent watch (List.mem_append_left _ member)

/-- The lines of one rule are those of its transitions, so lines can be counted
rule by rule where the transitions are told apart by name. -/
theorem count_label (name : String) (edge : Edge) (transitions : List Transition) :
    (transitions.map Transition.label).count (name, edge) =
      (eventsOf name transitions).countP fun transition => transition.edge = edge := by
  rw [List.count, List.countP_map, eventsOf, List.countP_filter]
  refine List.countP_congr fun transition _ => ?_
  simp [Transition.label, and_comm]

/-- Each transition that a snapshot causes turns the flag that it is noted for.
A rule causes at most one, and which direction it has depends on the flag it
found. -/
theorem balanced_observe (balanced : Balanced moved watches) (snapshot : Snapshot) :
    Balanced
      (moved ++ (watches.filterMap (Watch.transition? snapshot)).map Transition.label)
      (watches.map (Watch.observe snapshot)) where
  distinct := by
    rw [List.map_map]
    exact balanced.distinct
  flags := by
    intro observed member
    obtain ⟨watch, within, rfl⟩ := List.mem_map.mp member
    have former := balanced.flags watch within
    have caused := eventsOf_present balanced.distinct within snapshot
    have sameName : (watch.observe snapshot).rule.name = watch.rule.name := rfl
    rw [sameName, List.count_append, List.count_append, count_label, count_label, caused]
    unfold Watch.transition? Watch.observe
    cases before : watch.active <;> cases now : watch.rule.metIn snapshot <;>
      rw [before] at former <;> simp [Edge.toward] <;> simpa using former
  others := by
    intro name absent edge member
    have unwatched : ∀ watch ∈ watches, watch.rule.name ≠ name := fun watch within =>
      absent (watch.observe snapshot) (List.mem_map_of_mem within)
    rcases List.mem_append.mp member with former | new
    · exact balanced.others name unwatched edge former
    · obtain ⟨transition, listed, label⟩ := List.mem_map.mp new
      obtain ⟨watch, within, caused⟩ := List.mem_filterMap.mp listed
      have sameRule := Watch.rule_of_transition? caused
      rw [Transition.label, sameRule] at label
      exact unwatched watch within (Prod.mk.inj label).1

end Rules

section Derivations

variable {undefined : List String} {age : String → Nat} {derivations : List Derivation}

/-- Every evaluation of a derivation is noted as undefined or has yielded a
number. -/
structure Sampled (undefined : List String) (age : String → Nat) (derivations : List Derivation) :
    Prop where
  distinct : (derivations.map Derivation.name).Nodup
  samples : ∀ derivation ∈ derivations,
    undefined.count derivation.name + derivation.yielded = age derivation.name
  others : ∀ name, name ∉ derivations.map Derivation.name → name ∉ undefined ∧ age name = 0

/-- Without derivations nothing was evaluated and nothing noted. -/
theorem sampled_nil : Sampled [] (fun _ => 0) [] where
  distinct := List.nodup_nil
  samples := fun _ member => nomatch member
  others := fun _ _ => ⟨List.not_mem_nil, rfl⟩

/-- A new derivation has yielded nothing, and nothing was noted for it, because
its name was in neither book before. -/
theorem sampled_register (sampled : Sampled undefined age derivations) {derivation : Derivation}
    (fresh : derivation.name ∉ derivations.map Derivation.name)
    (unused : derivation.previous = none) :
    Sampled undefined age (derivations ++ [derivation]) where
  distinct := by
    rw [List.map_append, List.map_singleton, ← List.concat_eq_append]
    exact List.Nodup.concat fresh sampled.distinct
  samples := by
    intro other member
    rcases List.mem_append.mp member with former | new
    · exact sampled.samples other former
    · rw [List.mem_singleton] at new
      subst new
      obtain ⟨unnoted, young⟩ := sampled.others other.name fresh
      rw [List.count_eq_zero_of_not_mem unnoted, young, Derivation.yielded, unused]
      rfl
  others := by
    intro name absent
    apply sampled.others
    intro member
    apply absent
    rw [List.map_append]
    exact List.mem_append_left _ member

/-- Among derivations with names of their own, each is noted once if it yields
no number, and not at all if it does. -/
theorem count_undefined (distinct : (derivations.map Derivation.name).Nodup)
    (snapshot : Snapshot) (tick : Nat) {derivation : Derivation}
    (member : derivation ∈ derivations) :
    (Metrics.undefined ⟨tick, derivations.map fun other => other.evaluate snapshot⟩).count
        derivation.name =
      if (derivation.evaluate snapshot).value.isNumber then 0 else 1 := by
  let failing := derivations.filter fun other =>
    (other.evaluate snapshot).value.undefined?.isSome
  have noted : Metrics.undefined ⟨tick, derivations.map fun other => other.evaluate snapshot⟩ =
      failing.map Derivation.name := by
    rw [Metrics.undefined, List.filter_map, List.map_map]
    rfl
  have once : (failing.map Derivation.name).Nodup :=
    (List.filter_sublist.map Derivation.name).nodup distinct
  have listed : derivation.name ∈ failing.map Derivation.name ↔
      (derivation.evaluate snapshot).value.isNumber = false := by
    rw [List.mem_map]
    constructor
    · rintro ⟨other, within, same⟩
      obtain ⟨present, without⟩ := List.mem_filter.mp within
      obtain rfl := List.inj_on_of_nodup_map distinct present member same
      rwa [Value.isSome_undefined?, Bool.not_eq_true'] at without
    · intro without
      refine ⟨derivation, List.mem_filter.mpr ⟨member, ?_⟩, rfl⟩
      rw [Value.isSome_undefined?, without]
      rfl
  rw [noted, once.count]
  cases number : (derivation.evaluate snapshot).value.isNumber <;> simp [listed, number]

/-- Each evaluation is one more line or one more number, and it makes every
derivation one evaluation older. -/
theorem sampled_remember (sampled : Sampled undefined age derivations) (snapshot : Snapshot)
    (tick : Nat) :
    Sampled
      (undefined ++
        Metrics.undefined ⟨tick, derivations.map fun derivation => derivation.evaluate snapshot⟩)
      (fun name => age name + if name ∈ derivations.map Derivation.name then 1 else 0)
      (derivations.map (Derivation.remember snapshot)) where
  distinct := by
    rw [List.map_map]
    exact sampled.distinct
  samples := by
    intro remembered member
    obtain ⟨derivation, within, rfl⟩ := List.mem_map.mp member
    have former := sampled.samples derivation within
    have sameName : (derivation.remember snapshot).name = derivation.name := rfl
    rw [sameName, List.count_append, count_undefined sampled.distinct snapshot tick within,
      Derivation.yielded_remember, if_pos (List.mem_map_of_mem within)]
    split <;> omega
  others := by
    intro name absent
    rw [List.map_map] at absent
    have unknown : name ∉ derivations.map Derivation.name := absent
    obtain ⟨unnoted, young⟩ := sampled.others name unknown
    refine ⟨?_, by rw [young, if_neg unknown]⟩
    rw [List.mem_append, not_or]
    refine ⟨unnoted, fun member => unknown ?_⟩
    obtain ⟨metric, within, rfl⟩ := List.mem_map.mp member
    obtain ⟨derivation, present, rfl⟩ := List.mem_map.mp (List.mem_of_mem_filter within)
    exact List.mem_map_of_mem present

end Derivations

end Engine

end Telemetry
