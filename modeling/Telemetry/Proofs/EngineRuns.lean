import Telemetry.Proofs.EngineChecks
import Telemetry.Proofs.Histories
import Telemetry.Proofs.SnapshotReadings

/-!
# Runs of the engine

A run is a list of calls made one after another, each of which may be refused.
What the calls hand out along the way is collected in order. As far as rules are
concerned a call does one of three things: it leaves the watched rules alone, it
adds one inactive rule under a new name at the end, or it moves every flag to
what one snapshot says. Invariants of the watched rules are proved from these
three.
-/
namespace Telemetry

/-- Exactly what a rule must satisfy to be accepted. The three guards are passed
one after another, so the rule has to satisfy all of them. -/
theorem Rule.check_eq_ok_iff {rule : Rule} :
    rule.check = .ok () ↔
      rule.name.isEmpty = false ∧ rule.channel.isEmpty = false ∧ rule.limit.isFinite = true := by
  unfold Rule.check
  simp [guarded_eq_ok_iff, ensureFinite_eq_ok_iff]

namespace Engine

/-- A call that an engine can receive. -/
inductive Call where
  | registerDerivation (name : String) (dependsOn : List String) (compute : Context → Value)
  | registerRule (rule : Rule)
  | recompute (snapshot : Snapshot)
  | watch (snapshot : Snapshot)
  | resetDerivation (name : String)

/-- The engine after a call, refused or not. -/
def perform (engine : Engine) : Call → Engine
  | .registerDerivation name dependsOn compute =>
    standing engine (engine.registerDerivation name dependsOn compute)
  | .registerRule rule => standing engine (engine.registerRule rule)
  | .recompute snapshot => standing engine ((engine.recompute snapshot).map Prod.snd)
  | .watch snapshot => standing engine ((engine.watch snapshot).map Prod.snd)
  | .resetDerivation name => standing engine (engine.resetDerivation name)

/-- The engine after calls made one after another. -/
def run (calls : List Call) (engine : Engine) : Engine := calls.foldl perform engine

/-- The transitions that a call hands out; a refused call hands out none. -/
def emitted (engine : Engine) : Call → List Transition
  | .watch snapshot =>
    match engine.watch snapshot with
    | .ok (transitions, _) => transitions
    | .error _ => []
  | _ => []

/-- The snapshot that a call has compared the rules with, if it has. -/
def evaluated (engine : Engine) : Call → List Snapshot
  | .watch snapshot =>
    match engine.watch snapshot with
    | .ok _ => [snapshot]
    | .error _ => []
  | _ => []

/-- What a registration of a rule that succeeds has checked and done: the rule
is sound, its name is new, and it stands inactive behind the others. -/
theorem registerRule_eq_ok_iff {engine after : Engine} {rule : Rule} :
    engine.registerRule rule = .ok after ↔
      rule.check = .ok () ∧ (∀ watch ∈ engine.watches, watch.rule.name ≠ rule.name) ∧
        { engine with watches := engine.watches ++ [⟨rule, false⟩] } = after := by
  unfold registerRule
  cases rule.check with
  | error fault => simp
  | ok _ => simp [guarded_eq_ok_iff]

/-- What a registration of a derivation that succeeds has checked and done: its
name is new, and it stands behind the others with each dependency once and no
previous metric. -/
theorem registerDerivation_eq_ok_iff {engine after : Engine} {name : String}
    {dependsOn : List String} {compute : Context → Value} :
    engine.registerDerivation name dependsOn compute = .ok after ↔
      name.isEmpty = false ∧ (∀ derivation ∈ engine.derivations, derivation.name ≠ name) ∧
        { engine with
          derivations := engine.derivations ++
            [⟨name, firstOccurrences dependsOn, compute, none⟩] } = after := by
  unfold registerDerivation
  simp [guarded_eq_ok_iff]

/-- A derivation that is registered can be reset, and nothing else can. The
search for the name is the only way the call can fail. -/
theorem resetDerivation_eq_ok_iff {engine after : Engine} {name : String} :
    engine.resetDerivation name = .ok after ↔
      (∃ derivation, engine.derivation name = .ok derivation) ∧
        { engine with derivations := forget name engine.derivations } = after := by
  unfold resetDerivation
  rw [bind_eq_ok_iff]
  simp

/-- Everything a call can do to the watched rules. Invariants of the rules are
proved by these three cases and never by looking at the calls again. -/
theorem watches_cases (engine : Engine) (call : Call) :
    ((engine.perform call).watches = engine.watches ∧ engine.emitted call = [] ∧
        engine.evaluated call = []) ∨
      (∃ rule, (∀ watch ∈ engine.watches, watch.rule.name ≠ rule.name) ∧
        (engine.perform call).watches = engine.watches ++ [⟨rule, false⟩] ∧
        engine.emitted call = [] ∧ engine.evaluated call = []) ∨
      (∃ snapshot, engine.missingRuleChannel? snapshot.contains = none ∧
        (engine.perform call).watches = engine.watches.map (Watch.observe snapshot) ∧
        engine.emitted call = engine.watches.filterMap (Watch.transition? snapshot) ∧
        engine.evaluated call = [snapshot]) := by
  cases call with
  | registerDerivation name dependsOn compute =>
    refine .inl ⟨?_, rfl, rfl⟩
    cases outcome : engine.registerDerivation name dependsOn compute with
    | error fault => simp [perform, outcome]
    | ok after =>
      obtain ⟨_, _, rfl⟩ := registerDerivation_eq_ok_iff.mp outcome
      simp [perform, outcome]
  | registerRule rule =>
    cases outcome : engine.registerRule rule with
    | error fault => exact .inl ⟨by simp [perform, outcome], rfl, rfl⟩
    | ok after =>
      obtain ⟨_, fresh, rfl⟩ := registerRule_eq_ok_iff.mp outcome
      exact .inr (.inl ⟨rule, fresh, by simp [perform, outcome], rfl, rfl⟩)
  | recompute snapshot =>
    refine .inl ⟨?_, rfl, rfl⟩
    cases outcome : engine.recompute snapshot with
    | error fault => simp [perform, outcome, Except.map]
    | ok result =>
      obtain ⟨metrics, after⟩ := result
      obtain ⟨_, _, rfl⟩ := recompute_eq_ok_iff.mp outcome
      simp [perform, outcome, Except.map]
  | watch snapshot =>
    cases outcome : engine.watch snapshot with
    | error fault =>
      refine .inl ⟨?_, ?_, ?_⟩ <;> simp [perform, emitted, evaluated, outcome, Except.map]
    | ok result =>
      obtain ⟨transitions, after⟩ := result
      obtain ⟨present, rfl, rfl⟩ := watch_eq_ok_iff.mp outcome
      refine .inr (.inr ⟨snapshot, present, ?_, ?_, ?_⟩) <;>
        simp [perform, emitted, evaluated, outcome, Except.map]
  | resetDerivation name =>
    refine .inl ⟨?_, rfl, rfl⟩
    cases outcome : engine.resetDerivation name with
    | error fault => simp [perform, outcome]
    | ok after =>
      obtain ⟨_, rfl⟩ := resetDerivation_eq_ok_iff.mp outcome
      simp [perform, outcome]

/-- No two watched rules share a name. -/
def Distinct (engine : Engine) : Prop :=
  (engine.watches.map fun watch => watch.rule.name).Nodup

/-- A call keeps the names of the rules distinct: a rule that is added has a new
name, and comparing rules with a snapshot changes only their flags. -/
theorem distinct_perform {engine : Engine} (distinct : Distinct engine) (call : Call) :
    Distinct (engine.perform call) := by
  unfold Distinct at distinct ⊢
  rcases watches_cases engine call with ⟨same, _⟩ | ⟨rule, fresh, added, _⟩ |
    ⟨snapshot, _, moved, _⟩
  · rw [same]
    exact distinct
  · rw [added, List.map_append, List.nodup_append]
    refine ⟨distinct, by simp, ?_⟩
    intro former member name new same
    obtain ⟨watch, within, rfl⟩ := List.mem_map.mp member
    rw [List.map_singleton, List.mem_singleton] at new
    exact fresh watch within (same.trans new)
  · rw [moved, List.map_map]
    exact distinct

/-- So the names stay distinct through a run, however many of its calls are
refused. -/
theorem distinct_run {engine : Engine} (distinct : Distinct engine) (calls : List Call) :
    Distinct (run calls engine) :=
  List.foldlRecOn calls perform distinct fun _ held call _ => distinct_perform held call

/-- The flag of a rule, asked for by name. Since no other rule has the name, the
search for it ends at this very rule. -/
theorem isActive_of_mem {engine : Engine} (distinct : Distinct engine) {watch : Watch}
    (member : watch ∈ engine.watches) : engine.isActive watch.rule.name = .ok watch.active := by
  have found := (find?_eq_some_iff_mem distinct watch.rule.name watch).mpr ⟨member, rfl⟩
  rw [isActive, found]

end Engine

end Telemetry
