import Telemetry.Engine
import Telemetry.Proofs.Refusal

/-!
# What the engine checks and what it then does

The engine looks for missing inputs in three places: before a step it is asked
whether the names it reads are known, and deriving and watching ask a snapshot
for the same names. Here each of the three is brought to one form. The engine
refuses with the first fault that a search over its registrations finds, and
where the search finds nothing it does all of its work.

Watching is also freed of its two passes. Once no channel is missing, each
rule's flag becomes what the snapshot says of the rule, and a transition stands
for each flag that this changed.
-/
namespace Telemetry

/-- Whether a rule's condition holds of what a snapshot reads. It holds of no
absent reading. -/
def Rule.metIn (rule : Rule) (snapshot : Snapshot) : Bool :=
  (snapshot.get? rule.channel).any rule.isMet

/-- The direction in which a flag changes that becomes `now`. -/
def Edge.toward (now : Bool) : Edge := if now then .active else .cleared

namespace Watch

/-- A watched rule after a snapshot was compared with it. -/
def observe (snapshot : Snapshot) (watch : Watch) : Watch :=
  { watch with active := watch.rule.metIn snapshot }

/-- The transition that a snapshot causes, if it changes the flag. -/
def transition? (snapshot : Snapshot) (watch : Watch) : Option Transition :=
  if watch.active = watch.rule.metIn snapshot then none
  else some ⟨watch.rule, .toward (watch.rule.metIn snapshot), snapshot⟩

end Watch

/-- A derivation after it was evaluated against a snapshot. -/
def Derivation.remember (snapshot : Snapshot) (derivation : Derivation) : Derivation :=
  { derivation with previous := some (derivation.evaluate snapshot) }

namespace Engine

/-- No declared channel is missing exactly when each one is known: the search
goes through all dependencies of all derivations. -/
theorem missingDependency?_eq_none_iff {engine : Engine} {known : String → Bool} :
    engine.missingDependency? known = none ↔
      ∀ derivation ∈ engine.derivations, ∀ channel ∈ derivation.dependsOn,
        known channel = true := by
  simp [missingDependency?, List.findSome?_eq_none_iff]

/-- No rule's channel is missing exactly when each one is known, for the search
goes through the rules one by one. -/
theorem missingRuleChannel?_eq_none_iff {engine : Engine} {known : String → Bool} :
    engine.missingRuleChannel? known = none ↔
      ∀ watch ∈ engine.watches, known watch.rule.channel = true := by
  simp [missingRuleChannel?]

/-- The check passes exactly when neither search finds anything. The
dependencies come first, so a missing one hides whatever the rules lack. -/
theorem checkInputs_eq_ok_iff {engine : Engine} {known : String → Bool} :
    engine.checkInputs known = .ok () ↔
      engine.missingDependency? known = none ∧ engine.missingRuleChannel? known = none := by
  unfold checkInputs
  cases engine.missingDependency? known with
  | some fault => simp
  | none => cases engine.missingRuleChannel? known <;> simp

/-- Deriving refuses with the first missing dependency, and otherwise evaluates
every derivation. Having looked before it begins, it cannot stop halfway. -/
theorem recompute_eq (engine : Engine) (snapshot : Snapshot) :
    engine.recompute snapshot =
      match engine.missingDependency? snapshot.contains with
      | some fault => .error fault
      | none =>
        .ok (⟨snapshot.tick, engine.derivations.map fun derivation => derivation.evaluate snapshot⟩,
          { engine with derivations := engine.derivations.map (.remember snapshot) }) := by
  unfold recompute
  cases engine.missingDependency? snapshot.contains with
  | some fault => rfl
  | none =>
    simp only [List.zipWith_map_right, List.zipWith_self]
    rfl

/-- Deriving succeeds exactly when no dependency is missing, and what it yields
and keeps is then the same for every way of asking. -/
theorem recompute_eq_ok_iff {engine after : Engine} {snapshot : Snapshot} {metrics : Metrics} :
    engine.recompute snapshot = .ok (metrics, after) ↔
      engine.missingDependency? snapshot.contains = none ∧
        ⟨snapshot.tick, engine.derivations.map fun derivation => derivation.evaluate snapshot⟩ =
          metrics ∧
        { engine with derivations := engine.derivations.map (.remember snapshot) } = after := by
  rw [recompute_eq]
  cases engine.missingDependency? snapshot.contains <;> simp

/-- Comparing the rules with a snapshot stops at the first missing channel.
Where there is none, each comparison is with a reading that exists. -/
theorem conditions_eq (snapshot : Snapshot) (watches : List Watch) :
    conditions snapshot watches =
      match watches.find? fun watch => !snapshot.contains watch.rule.channel with
      | some watch => .error (.ruleChannelMissing watch.rule.channel watch.rule.name)
      | none => .ok (watches.map fun watch => watch.rule.metIn snapshot) := by
  induction watches with
  | nil => rfl
  | cons watch rest inductionHypothesis =>
    cases read : snapshot.get? watch.rule.channel with
    | none => simp [conditions, Snapshot.contains, read]
    | some reading =>
      have present : snapshot.contains watch.rule.channel = true := by
        simp [Snapshot.contains, read]
      have held : watch.rule.metIn snapshot = watch.rule.isMet reading := by
        simp [Rule.metIn, read]
      simp only [conditions, read, inductionHypothesis, List.find?_cons, present, Bool.not_true,
        List.map_cons, held]
      cases rest.find? fun watch => !snapshot.contains watch.rule.channel <;> rfl

/-- Bringing the flags in line with a snapshot, rule by rule: the pass over
flags and conditions side by side is a pass over the rules alone. -/
theorem flip_eq (snapshot : Snapshot) (watches : List Watch) :
    flip snapshot watches (watches.map fun watch => watch.rule.metIn snapshot) =
      (watches.filterMap (Watch.transition? snapshot), watches.map (Watch.observe snapshot)) := by
  induction watches with
  | nil => rfl
  | cons watch rest inductionHypothesis =>
    simp only [List.map_cons, flip, inductionHypothesis]
    by_cases same : watch.active = watch.rule.metIn snapshot
    · simp only [same, ↓reduceIte, List.filterMap_cons, Watch.transition?, Watch.observe]
      rw [← same]
    · simp only [same, ↓reduceIte, List.filterMap_cons, Watch.transition?, Watch.observe]
      rfl

/-- Watching refuses with the first missing channel, and otherwise moves every
flag to what the snapshot says of its rule. The two passes have become one. -/
theorem watch_eq (engine : Engine) (snapshot : Snapshot) :
    engine.watch snapshot =
      match engine.missingRuleChannel? snapshot.contains with
      | some fault => .error fault
      | none => .ok (engine.watches.filterMap (Watch.transition? snapshot),
          { engine with watches := engine.watches.map (Watch.observe snapshot) }) := by
  unfold watch missingRuleChannel?
  rw [conditions_eq]
  cases engine.watches.find? fun watch => !snapshot.contains watch.rule.channel with
  | some watch => rfl
  | none =>
    simp only [ok_bind, flip_eq]
    rfl

/-- Watching succeeds exactly when no rule's channel is missing. The transitions
it hands out and the flags it leaves are then functions of the snapshot. -/
theorem watch_eq_ok_iff {engine after : Engine} {snapshot : Snapshot}
    {transitions : List Transition} :
    engine.watch snapshot = .ok (transitions, after) ↔
      engine.missingRuleChannel? snapshot.contains = none ∧
        engine.watches.filterMap (Watch.transition? snapshot) = transitions ∧
        { engine with watches := engine.watches.map (Watch.observe snapshot) } = after := by
  rw [watch_eq]
  cases engine.missingRuleChannel? snapshot.contains <;> simp

end Engine

end Telemetry
