import Telemetry.Proofs.SessionSteps

/-!
# Which input the engine misses first

Three places ask for the channels that an engine reads: deriving, watching, and
the check that is made beforehand. Each reports one fault, though several
channels may be missing. This module says which one it is, without reference to
how it was searched: the first derivation in the order of registration that
lacks a channel, and the first of its channels in the order of declaration that
is missing; or the first rule whose channel is missing. The check reports what
deriving would report, and failing that what watching would.

A refusal is settled by names alone. It is the same whatever the formulas
compute, so none of them can have been asked, and it leaves the session as it
was.
-/
namespace Telemetry

/-- An element of a list that breaks a condition, with none before it that
does. -/
def BreaksFirst {α : Type} (Holds : α → Prop) (elements : List α) (element : α) : Prop :=
  ∃ front back, elements = front ++ element :: back ∧ (∀ former ∈ front, Holds former) ∧
    ¬ Holds element

/-- A search for what fails a test finds the element that breaks it first, and
so can be described without the order in which it proceeds. -/
theorem find?_not_eq_some_iff {α : Type} {test : α → Bool} {elements : List α} {element : α} :
    (elements.find? fun other => !test other) = some element ↔
      BreaksFirst (fun other => test other = true) elements element := by
  simp only [List.find?_eq_some_iff_append, BreaksFirst, Bool.not_eq_true', Bool.not_not]
  constructor
  · rintro ⟨fails, front, back, split, passed⟩
    exact ⟨front, back, split, passed, by simp [fails]⟩
  · rintro ⟨front, back, split, passed, fails⟩
    exact ⟨by simpa using fails, front, back, split, passed⟩

namespace Engine

variable {engine : Engine} {known : String → Bool} {fault : Fault}

/-- The engine with other formulas behind the same names and declarations. -/
def withFormulas (engine : Engine) (formulas : Derivation → Context → Value) : Engine :=
  { engine with
    derivations := engine.derivations.map fun derivation =>
      { derivation with compute := formulas derivation } }

/-- Exactly which missing dependency is reported: two searches one inside the
other, each stopping at the first that breaks its condition. -/
theorem missingDependency?_eq_some_iff :
    engine.missingDependency? known = some fault ↔
      ∃ derivation channel,
        BreaksFirst (fun other : Derivation => ∀ declared ∈ other.dependsOn, known declared = true)
          engine.derivations derivation ∧
        BreaksFirst (fun declared => known declared = true) derivation.dependsOn channel ∧
        fault = .dependencyMissing channel derivation.name := by
  simp only [missingDependency?, List.findSome?_eq_some_iff, Option.map_eq_some_iff,
    Option.map_eq_none_iff, List.find?_eq_none, find?_not_eq_some_iff, Bool.not_eq_true',
    Bool.not_eq_false]
  constructor
  · rintro ⟨front, derivation, back, split, ⟨channel, first, rfl⟩, passed⟩
    refine ⟨derivation, channel, ⟨front, back, split, passed, fun complete => ?_⟩, first, rfl⟩
    obtain ⟨before, after, declared, _, fails⟩ := first
    exact fails (complete channel (by simp [declared]))
  · rintro ⟨derivation, channel, ⟨front, back, split, passed, _⟩, first, rfl⟩
    exact ⟨front, derivation, back, split, ⟨channel, first, rfl⟩, passed⟩

/-- Exactly which rule is reported for its missing channel. The search goes over
the watched rules, and their flags have no part in it. -/
theorem missingRuleChannel?_eq_some_iff :
    engine.missingRuleChannel? known = some fault ↔
      ∃ rule, BreaksFirst (fun other : Rule => known other.channel = true) engine.rules rule ∧
        fault = .ruleChannelMissing rule.channel rule.name := by
  have sameSearch : (engine.watches.find? fun watch => !known watch.rule.channel).map Watch.rule =
      engine.rules.find? fun rule => !known rule.channel := by
    rw [rules, List.find?_map]
    rfl
  have reported : engine.missingRuleChannel? known =
      (engine.rules.find? fun rule => !known rule.channel).map fun rule =>
        .ruleChannelMissing rule.channel rule.name := by
    rw [← sameSearch, Option.map_map]
    rfl
  rw [reported, Option.map_eq_some_iff]
  have found := @find?_not_eq_some_iff Rule (fun rule => known rule.channel) engine.rules
  simp only [found, eq_comm]

/-- Formulas have no part in what is missing, for the search looks at names and
declarations only. -/
theorem missingDependency?_withFormulas (formulas : Derivation → Context → Value) :
    (engine.withFormulas formulas).missingDependency? known = engine.missingDependency? known := by
  rw [missingDependency?, withFormulas, List.findSome?_map]
  rfl

/-- Deriving refuses exactly what the search for a dependency finds, with the
fault found there. -/
theorem recompute_eq_error_iff {snapshot : Snapshot} :
    engine.recompute snapshot = .error fault ↔
      engine.missingDependency? snapshot.contains = some fault := by
  rw [recompute_eq]
  cases engine.missingDependency? snapshot.contains <;> simp

/-- Watching refuses exactly what the search for a rule's channel finds, with
the fault found there. -/
theorem watch_eq_error_iff {snapshot : Snapshot} :
    engine.watch snapshot = .error fault ↔
      engine.missingRuleChannel? snapshot.contains = some fault := by
  rw [watch_eq]
  cases engine.missingRuleChannel? snapshot.contains <;> simp

/-- Deriving is refused exactly when a declared channel is missing, whichever
derivation declares it. -/
theorem recompute_refused_iff {snapshot : Snapshot} :
    (∃ fault, engine.recompute snapshot = .error fault) ↔
      ∃ derivation ∈ engine.derivations, ∃ channel ∈ derivation.dependsOn,
        snapshot.contains channel = false := by
  simp only [recompute_eq_error_iff, ← Option.isSome_iff_exists, Option.isSome_iff_ne_none, ne_eq,
    missingDependency?_eq_none_iff, not_forall, exists_prop, Bool.not_eq_true]

/-- Watching is refused exactly when a rule's channel is missing, whichever rule
it is. -/
theorem watch_refused_iff {snapshot : Snapshot} :
    (∃ fault, engine.watch snapshot = .error fault) ↔
      ∃ rule ∈ engine.rules, snapshot.contains rule.channel = false := by
  simp only [watch_eq_error_iff, ← Option.isSome_iff_exists, Option.isSome_iff_ne_none, ne_eq,
    missingRuleChannel?_eq_none_iff, not_forall, exists_prop, Bool.not_eq_true, rules, List.mem_map]
  constructor
  · rintro ⟨watch, member, missing⟩
    exact ⟨watch.rule, ⟨watch, member, rfl⟩, missing⟩
  · rintro ⟨_, ⟨watch, member, rfl⟩, missing⟩
    exact ⟨watch, member, missing⟩

/-- The check beforehand reports what deriving would, and failing that what
watching would. It is given the names of the snapshot and makes the same two
searches. -/
theorem checkInputs_contains (engine : Engine) (snapshot : Snapshot) :
    engine.checkInputs snapshot.contains =
      match engine.recompute snapshot with
      | .error fault => .error fault
      | .ok _ =>
        match engine.watch snapshot with
        | .error fault => .error fault
        | .ok _ => .ok () := by
  rw [recompute_eq, watch_eq, checkInputs]
  cases engine.missingDependency? snapshot.contains with
  | some fault => rfl
  | none => cases engine.missingRuleChannel? snapshot.contains <;> rfl

end Engine

namespace Session

variable {σ ρ : Type} (session : Session σ ρ) (snapshot : Snapshot)

/-- Deriving leaves the rules and their flags, refused or not. What it writes is
what the derivations remember. -/
theorem watches_recompute :
    ((recompute snapshot).on session).2.simulator.engine.watches =
      session.simulator.engine.watches := by
  rw [recompute_on, Engine.recompute_eq]
  cases session.simulator.engine.missingDependency? snapshot.contains <;> rfl

/-- Watching leaves the derivations and what they remember, refused or not. What
it writes is the flags. -/
theorem derivations_watch :
    ((watch snapshot).on session).2.simulator.engine.derivations =
      session.simulator.engine.derivations := by
  rw [watch_on, Engine.watch_eq]
  cases session.simulator.engine.missingRuleChannel? snapshot.contains <;> rfl

end Session

/-- Deriving from a snapshot is refused exactly when a declared channel is not
in it. The fault is that of the first derivation that lacks a channel and of its
first channel that is missing. It does not depend on what the formulas compute,
and a session in which the engine refuses is left as it was. Watching is refused
exactly when a rule's channel is not in the snapshot, for the first such rule,
and then leaves the session as it was, whatever rules come before. Neither
touches what the other one keeps. The check with the names of the snapshot
reports the fault of deriving, else that of watching, else none.

Each of the three is a search by name that comes before all work, so what it
finds is said without the work. -/
theorem Engine.refusals_foretold (engine : Engine) (snapshot : Snapshot) :
    ((∃ fault, engine.recompute snapshot = .error fault) ↔
        ∃ derivation ∈ engine.derivations, ∃ channel ∈ derivation.dependsOn,
          snapshot.contains channel = false) ∧
      (∀ fault, engine.recompute snapshot = .error fault →
        fault.category = .notFound ∧
        (∃ derivation channel,
          BreaksFirst
            (fun other : Derivation =>
              ∀ declared ∈ other.dependsOn, snapshot.contains declared = true)
            engine.derivations derivation ∧
          BreaksFirst (fun declared => snapshot.contains declared = true) derivation.dependsOn
            channel ∧
          fault = .dependencyMissing channel derivation.name) ∧
        (∀ formulas, (engine.withFormulas formulas).recompute snapshot = .error fault) ∧
        ∀ {σ ρ : Type} (session : Session σ ρ), session.simulator.engine = engine →
          (Session.recompute snapshot).on session = (.error fault, session)) ∧
      ((∃ fault, engine.watch snapshot = .error fault) ↔
        ∃ rule ∈ engine.rules, snapshot.contains rule.channel = false) ∧
      (∀ fault, engine.watch snapshot = .error fault →
        fault.category = .notFound ∧
        (∃ rule,
          BreaksFirst (fun other : Rule => snapshot.contains other.channel = true) engine.rules
            rule ∧
          fault = .ruleChannelMissing rule.channel rule.name) ∧
        ∀ {σ ρ : Type} (session : Session σ ρ), session.simulator.engine = engine →
          (Session.watch snapshot).on session = (.error fault, session)) ∧
      (∀ {σ ρ : Type} (session : Session σ ρ),
        ((Session.recompute snapshot).on session).2.simulator.engine.watches =
            session.simulator.engine.watches ∧
          ((Session.watch snapshot).on session).2.simulator.engine.derivations =
            session.simulator.engine.derivations) ∧
      engine.checkInputs snapshot.contains =
        match engine.recompute snapshot with
        | .error fault => .error fault
        | .ok _ =>
          match engine.watch snapshot with
          | .error fault => .error fault
          | .ok _ => .ok () := by
  refine ⟨recompute_refused_iff, ?_, watch_refused_iff, ?_, ?_,
    checkInputs_contains engine snapshot⟩
  · intro fault refused
    have missing := recompute_eq_error_iff.mp refused
    obtain ⟨derivation, channel, first, firstChannel, rfl⟩ :=
      missingDependency?_eq_some_iff.mp missing
    refine ⟨rfl, ⟨derivation, channel, first, firstChannel, rfl⟩, fun formulas => ?_, ?_⟩
    · rw [recompute_eq_error_iff, missingDependency?_withFormulas, missing]
    · rintro σ ρ session rfl
      rw [Session.recompute_on, refused]
  · intro fault refused
    obtain ⟨rule, first, rfl⟩ := missingRuleChannel?_eq_some_iff.mp (watch_eq_error_iff.mp refused)
    refine ⟨rfl, ⟨rule, first, rfl⟩, ?_⟩
    rintro σ ρ session rfl
    rw [Session.watch_on, refused]
  · intro σ ρ session
    exact ⟨session.watches_recompute snapshot, session.derivations_watch snapshot⟩

end Telemetry
