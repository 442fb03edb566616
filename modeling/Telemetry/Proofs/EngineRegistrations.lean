import Telemetry.Proofs.Accumulators
import Telemetry.Proofs.Histories

/-!
# An engine holds what was registered, each name once

Everything by name goes through a search for the first entry that has it: what a
derivation yielded last, the channels it declares, its reset, the flag of a
rule, a metric of one recomputation. Such an answer is about the entry that was
registered under the name only as long as no other entry has the name too. Two
checks at registration see to that, and all later calls leave names alone.

The histories of the registrations that succeeded are the measure. At every
point of a run the derivations are those registered, in order, and so are the
rules; deriving, watching and resetting move only what derivations remember and
the flags of rules. What a derivation declares is the list it was given, without
the places at which a name comes again.
-/
namespace Telemetry

/-- The names of a list, without the places at which a name has come before. -/
def atFirstPlaces (names : List String) : List String :=
  (names.zipIdx.filter fun entry => entry.1 ∉ names.take entry.2).map Prod.fst

section FirstPlaces

/-- Dropping repetitions keeps the order: what is left is part of the list. -/
theorem firstOccurrences_sublist (names : List String) :
    (firstOccurrences names).Sublist names := by
  induction names with
  | nil => exact List.Sublist.refl _
  | cons first rest inductionHypothesis =>
    exact (List.filter_sublist.trans inductionHypothesis).cons_cons first

/-- What is left has no repetition, since each name kept is dropped from
everything behind it. -/
theorem nodup_firstOccurrences (names : List String) : (firstOccurrences names).Nodup := by
  induction names with
  | nil => exact List.nodup_nil
  | cons first rest inductionHypothesis =>
    refine List.nodup_cons.mpr ⟨?_, inductionHypothesis.filter _⟩
    intro again
    simpa using List.of_mem_filter again

/-- No name is lost. The first place of a name is not dropped by the names
before it, which are different. -/
theorem mem_firstOccurrences_iff {name : String} {names : List String} :
    name ∈ firstOccurrences names ↔ name ∈ names := by
  refine ⟨fun member => (firstOccurrences_sublist names).mem member, fun member => ?_⟩
  induction names with
  | nil => exact member
  | cons first rest inductionHypothesis =>
    rw [firstOccurrences, List.mem_cons]
    by_cases same : name = first
    · exact .inl same
    · have later := inductionHypothesis ((List.mem_cons.mp member).resolve_left same)
      exact .inr (List.mem_filter.mpr ⟨later, by simpa using same⟩)

/-- Behind its first name, a list keeps the places that it would keep without
that name, except those of the name itself. -/
theorem atFirstPlaces_cons (first : String) (rest : List String) :
    atFirstPlaces (first :: rest) =
      first :: (atFirstPlaces rest).filter fun name => name ≠ first := by
  have moved : rest.zipIdx 1 = rest.zipIdx.map fun entry => (entry.1, entry.2 + 1) := by
    rw [List.zipIdx_succ]
  rw [atFirstPlaces, atFirstPlaces, List.zipIdx_cons, List.filter_cons_of_pos (by simp),
    List.map_cons, Nat.zero_add, moved, List.filter_map, List.map_map, List.filter_map,
    List.filter_filter]
  refine congrArg (first :: ·) (congrArg (List.map Prod.fst) (List.filter_congr ?_))
  intro entry _
  simp [List.take_succ_cons]

/-- Dropping repetitions one name after another keeps exactly the first places.
The function that the engine runs is thereby described without its recursion. -/
theorem firstOccurrences_eq (names : List String) :
    firstOccurrences names = atFirstPlaces names := by
  induction names with
  | nil => rfl
  | cons first rest inductionHypothesis =>
    rw [firstOccurrences, inductionHypothesis, atFirstPlaces_cons]

example : atFirstPlaces ["b", "a", "b", "c", "a"] = ["b", "a", "c"] := by decide

/-- The first places hold each name of the list once, in the order of the list,
as the function that computes them does. -/
theorem atFirstPlaces_once (names : List String) :
    (atFirstPlaces names).Nodup ∧ (atFirstPlaces names).Sublist names ∧
      ∀ name, name ∈ atFirstPlaces names ↔ name ∈ names := by
  rw [← firstOccurrences_eq]
  exact ⟨nodup_firstOccurrences names, firstOccurrences_sublist names,
    fun _ => mem_firstOccurrences_iff⟩

end FirstPlaces

/-- What a derivation is registered with. -/
structure Declaration where
  name : String
  dependsOn : List String
  compute : Context → Value

/-- What is kept of a registration: each channel once, at its first place. -/
def Declaration.kept (given : Declaration) : Declaration :=
  { given with dependsOn := atFirstPlaces given.dependsOn }

/-- What a derivation keeps from its registration on. -/
def Derivation.declaration (derivation : Derivation) : Declaration :=
  ⟨derivation.name, derivation.dependsOn, derivation.compute⟩

namespace Engine

/-- What a call has registered a derivation with, if it has. -/
def declarations (engine : Engine) : Call → List Declaration
  | .registerDerivation name dependsOn compute =>
    match engine.registerDerivation name dependsOn compute with
    | .ok _ => [⟨name, dependsOn, compute⟩]
    | .error _ => []
  | _ => []

/-- The rule that a call has registered, if it has. -/
def adoptions (engine : Engine) : Call → List Rule
  | .registerRule rule =>
    match engine.registerRule rule with
    | .ok _ => [rule]
    | .error _ => []
  | _ => []

section Histories

/-- A call that introduces no derivation leaves what the derivations were
registered with. Evaluating and resetting change what is remembered, which was
not part of it. -/
theorem declarations_kept {engine : Engine} {call : Call} (none : engine.introduced call = []) :
    (engine.perform call).derivations.map Derivation.declaration =
      engine.derivations.map Derivation.declaration := by
  rcases derivations_cases engine call with ⟨same, _⟩ | ⟨new, _, _, _, one, _⟩ |
    ⟨snapshot, _, moved, _⟩ | ⟨wanted, moved, _⟩
  · rw [same]
  · rw [none] at one
    cases one
  · rw [moved, List.map_map]
    rfl
  · rw [moved, map_forget fun _ => rfl]

/-- Only a registration adds a derivation, at the end, and it keeps each channel
that it was given at its first place. -/
theorem declarations_perform (engine : Engine) (call : Call) :
    (engine.perform call).derivations.map Derivation.declaration =
      engine.derivations.map Derivation.declaration ++
        (engine.declarations call).map Declaration.kept := by
  cases call with
  | registerDerivation name dependsOn compute =>
    cases outcome : engine.registerDerivation name dependsOn compute with
    | error fault => simp [perform, declarations, outcome]
    | ok after =>
      obtain ⟨_, _, rfl⟩ := registerDerivation_eq_ok_iff.mp outcome
      simp [perform, declarations, outcome, Derivation.declaration, Declaration.kept,
        firstOccurrences_eq]
  | registerRule | recompute | watch | resetDerivation =>
    simp only [declarations, List.map_nil, List.append_nil]
    exact declarations_kept rfl

/-- Only a registration adds a rule, at the end, and no call changes one.
Comparing the rules with a snapshot moves their flags alone. -/
theorem adoptions_perform (engine : Engine) (call : Call) :
    (engine.perform call).rules = engine.rules ++ engine.adoptions call := by
  cases call with
  | registerRule rule =>
    cases outcome : engine.registerRule rule with
    | error fault => simp [perform, adoptions, outcome]
    | ok after =>
      obtain ⟨_, _, rfl⟩ := registerRule_eq_ok_iff.mp outcome
      simp [perform, adoptions, outcome, rules]
  | registerDerivation name dependsOn compute =>
    cases outcome : engine.registerDerivation name dependsOn compute with
    | error fault => simp [perform, adoptions, outcome]
    | ok after =>
      obtain ⟨_, _, rfl⟩ := registerDerivation_eq_ok_iff.mp outcome
      simp [perform, adoptions, outcome, rules]
  | recompute snapshot =>
    cases outcome : engine.recompute snapshot with
    | error fault => simp [perform, adoptions, outcome, Except.map]
    | ok result =>
      obtain ⟨metrics, after⟩ := result
      obtain ⟨_, _, rfl⟩ := recompute_eq_ok_iff.mp outcome
      simp [perform, adoptions, outcome, Except.map, rules]
  | watch snapshot =>
    cases outcome : engine.watch snapshot with
    | error fault => simp [perform, adoptions, outcome, Except.map]
    | ok result =>
      obtain ⟨transitions, after⟩ := result
      obtain ⟨_, _, rfl⟩ := watch_eq_ok_iff.mp outcome
      simp [perform, adoptions, outcome, Except.map, rules, Watch.observe]
  | resetDerivation name =>
    cases outcome : engine.resetDerivation name with
    | error fault => simp [perform, adoptions, outcome]
    | ok after =>
      obtain ⟨_, rfl⟩ := resetDerivation_eq_ok_iff.mp outcome
      simp [perform, adoptions, outcome, rules]

/-- A derivation that was registered has a name, because the empty one is
refused. -/
theorem named_of_declarations (engine : Engine) (call : Call) :
    ∀ given ∈ engine.declarations call, given.name ≠ "" := by
  intro given member
  cases call with
  | registerDerivation name dependsOn compute =>
    cases outcome : engine.registerDerivation name dependsOn compute with
    | error fault => simp [declarations, outcome] at member
    | ok after =>
      obtain ⟨named, _⟩ := registerDerivation_eq_ok_iff.mp outcome
      simp only [declarations, outcome, List.mem_singleton] at member
      subst member
      simpa using named
  | registerRule | recompute | watch | resetDerivation => exact absurd member List.not_mem_nil

/-- A rule that was registered has passed its check, which is the first thing a
registration does. -/
theorem checked_of_adoptions (engine : Engine) (call : Call) :
    ∀ rule ∈ engine.adoptions call, rule.check = .ok () := by
  intro rule member
  cases call with
  | registerRule other =>
    cases outcome : engine.registerRule other with
    | error fault => simp [adoptions, outcome] at member
    | ok after =>
      obtain ⟨checked, _⟩ := registerRule_eq_ok_iff.mp outcome
      simp only [adoptions, outcome, List.mem_singleton] at member
      subst member
      exact checked
  | registerDerivation | recompute | watch | resetDerivation =>
    exact absurd member List.not_mem_nil

end Histories

section Search

variable {engine : Engine} {name : String}

/-- Where no name repeats, a search by name finds the one derivation that has
it, wherever in the list it stands. -/
theorem derivation_eq_ok_iff_mem (distinct : engine.derivationNames.Nodup)
    {derivation : Derivation} :
    engine.derivation name = .ok derivation ↔
      derivation ∈ engine.derivations ∧ derivation.name = name := by
  rw [derivation_eq_ok_iff]
  exact find?_eq_some_iff_mem distinct name derivation

/-- It finds nothing exactly when no derivation has the name, and then refuses
with this name. -/
theorem derivation_eq_error_iff {fault : Fault} :
    engine.derivation name = .error fault ↔
      name ∉ engine.derivationNames ∧ fault = .notRegistered .derivation name := by
  have absent : (engine.derivations.find? fun other => other.name = name) = none ↔
      name ∉ engine.derivationNames := by
    simp [derivationNames, List.find?_eq_none]
  rw [← absent, Engine.derivation]
  cases engine.derivations.find? fun other => other.name = name <;> simp [eq_comm]

/-- A reset refuses what the search for its derivation refuses, and nothing
else, since after the search it cannot fail. -/
theorem resetDerivation_eq_error_iff {fault : Fault} :
    engine.resetDerivation name = .error fault ↔ engine.derivation name = .error fault := by
  unfold resetDerivation
  cases engine.derivation name <;> simp

/-- Where no name repeats, resetting a name renews the one derivation that has
it. The recursion stops there, and there is none behind that it would have
missed. -/
theorem forget_eq_map {derivations : List Derivation}
    (distinct : (derivations.map Derivation.name).Nodup) (name : String) :
    forget name derivations = derivations.map fun derivation =>
      if derivation.name = name then derivation.renew else derivation := by
  induction derivations with
  | nil => rfl
  | cons first rest inductionHypothesis =>
    obtain ⟨fresh, restDistinct⟩ := List.nodup_cons.mp distinct
    rw [forget, List.map_cons]
    by_cases named : first.name = name
    · have others : ∀ derivation ∈ rest, derivation.name ≠ name := fun derivation within same =>
        fresh (List.mem_map.mpr ⟨derivation, within, same.trans named.symm⟩)
      have untouched : (rest.map fun derivation =>
          if derivation.name = name then derivation.renew else derivation) = rest := by
        rw [List.map_congr_left fun derivation within => if_neg (others derivation within),
          List.map_id']
      rw [if_pos named, if_pos named, untouched, Derivation.renew]
    · rw [if_neg named, if_neg named, inductionHypothesis restDistinct]

/-- Where no name repeats, the flag of a rule is that of the one watch that has
it. -/
theorem isActive_eq_ok_iff (distinct : Distinct engine) {flag : Bool} :
    engine.isActive name = .ok flag ↔
      ∃ watch ∈ engine.watches, watch.rule.name = name ∧ watch.active = flag := by
  constructor
  · intro answered
    rw [isActive] at answered
    cases found : engine.watches.find? fun watch => watch.rule.name = name with
    | none => simp [found] at answered
    | some watch =>
      have flagged : watch.active = flag := by simpa [found] using answered
      obtain ⟨member, named⟩ := (find?_eq_some_iff_mem distinct name watch).mp found
      exact ⟨watch, member, named, flagged⟩
  · rintro ⟨watch, member, rfl, rfl⟩
    exact isActive_of_mem distinct member

/-- Asking for a flag is refused exactly when no rule has the name, and the
fault says which name it was. -/
theorem isActive_eq_error_iff {fault : Fault} :
    engine.isActive name = .error fault ↔
      name ∉ engine.rules.map Rule.name ∧ fault = .notRegistered .threshold name := by
  have absent : (engine.watches.find? fun watch => watch.rule.name = name) = none ↔
      name ∉ engine.rules.map Rule.name := by
    simp [rules, List.find?_eq_none]
  rw [← absent, isActive]
  cases engine.watches.find? fun watch => watch.rule.name = name <;> simp [eq_comm]

end Search

/-- An engine holds what was registered, in the order of registration, and what
it holds satisfies what registration asks for. -/
structure Keeps (given : List Declaration) (adopted : List Rule) (engine : Engine) : Prop where
  declarations : engine.derivations.map Derivation.declaration = given.map Declaration.kept
  rules : engine.rules = adopted
  derivationsNamed : ∀ name ∈ engine.derivationNames, name ≠ ""
  derivationsDistinct : engine.derivationNames.Nodup
  rulesNamed : ∀ rule ∈ engine.rules, rule.name ≠ ""
  rulesDistinct : (engine.rules.map Rule.name).Nodup
  rulesUsable : ∀ rule ∈ engine.rules, rule.channel ≠ "" ∧ rule.limit.isFinite = true
  channelsDistinct : ∀ derivation ∈ engine.derivations, derivation.dependsOn.Nodup
  channels : ∀ derivation ∈ engine.derivations, ∃ source ∈ given,
    source.name = derivation.name ∧ derivation.dependsOn = atFirstPlaces source.dependsOn ∧
      derivation.dependsOn.Sublist source.dependsOn ∧
      ∀ channel, channel ∈ derivation.dependsOn ↔ channel ∈ source.dependsOn

/-- After any run an engine keeps what was registered. The order and the entries
are read off the two histories, and the rest is what each registration had to
satisfy. -/
theorem keeps_run (calls : List Call) :
    (run calls {}).Keeps (along perform declarations calls {})
      (along perform adoptions calls {}) := by
  have kept : (run calls {}).derivations.map Derivation.declaration =
      (along perform declarations calls {}).map Declaration.kept := by
    rw [along_map]
    exact shown_foldl (fun engine : Engine => engine.derivations.map Derivation.declaration)
      declarations_perform calls {}
  have adopted : (run calls {}).rules = along perform adoptions calls {} :=
    shown_foldl rules adoptions_perform calls {}
  have named : ∀ given ∈ along perform declarations calls {}, given.name ≠ "" :=
    forall_mem_along perform named_of_declarations calls {}
  have checked : ∀ rule ∈ along perform adoptions calls {}, rule.check = .ok () :=
    forall_mem_along perform checked_of_adoptions calls {}
  -- Each derivation was registered, so what registration asks for holds of it.
  have source : ∀ derivation ∈ (run calls {}).derivations,
      ∃ given ∈ along perform declarations calls {}, given.name = derivation.name ∧
        derivation.dependsOn = atFirstPlaces given.dependsOn := by
    intro derivation member
    have listed := List.mem_map_of_mem (f := Derivation.declaration) member
    rw [kept, List.mem_map] at listed
    obtain ⟨given, registered, same⟩ := listed
    exact ⟨given, registered, congrArg Declaration.name same,
      (congrArg Declaration.dependsOn same).symm⟩
  constructor
  · exact kept
  · exact adopted
  · intro name member
    obtain ⟨derivation, within, rfl⟩ := List.mem_map.mp member
    obtain ⟨given, registered, sameName, _⟩ := source derivation within
    rw [← sameName]
    exact named given registered
  · exact derivationNames_nodup_run calls
  · intro rule member
    rw [adopted] at member
    simpa using (Rule.check_eq_ok_iff.mp (checked rule member)).1
  · have initial : Distinct {} := List.nodup_nil
    rw [rules, List.map_map]
    exact distinct_run initial calls
  · intro rule member
    rw [adopted] at member
    obtain ⟨_, channel, limit⟩ := Rule.check_eq_ok_iff.mp (checked rule member)
    exact ⟨by simpa using channel, limit⟩
  · intro derivation member
    obtain ⟨given, _, _, declared⟩ := source derivation member
    rw [declared]
    exact (atFirstPlaces_once given.dependsOn).1
  · intro derivation member
    obtain ⟨given, registered, sameName, declared⟩ := source derivation member
    refine ⟨given, registered, sameName, declared, ?_⟩
    rw [declared]
    exact (atFirstPlaces_once given.dependsOn).2

/-- Whatever an engine is asked by name, it answers for the one entry that has
the name, and it refuses exactly the names that no entry has. -/
structure AnswersByName (engine : Engine) : Prop where
  previous : ∀ name metric, engine.previous name = .ok metric ↔
    ∃ derivation ∈ engine.derivations, derivation.name = name ∧ derivation.previous = metric
  dependencies : ∀ name channels, engine.dependencies name = .ok channels ↔
    ∃ derivation ∈ engine.derivations, derivation.name = name ∧ derivation.dependsOn = channels
  reset : ∀ name after, engine.resetDerivation name = .ok after ↔
    name ∈ engine.derivationNames ∧
      { engine with
        derivations := engine.derivations.map fun derivation =>
          if derivation.name = name then derivation.renew else derivation } = after
  flag : ∀ name active, engine.isActive name = .ok active ↔
    ∃ watch ∈ engine.watches, watch.rule.name = name ∧ watch.active = active
  metric : ∀ snapshot metrics after, engine.recompute snapshot = .ok (metrics, after) →
    ∀ name metric, metrics.get? name = some metric ↔
      ∃ derivation ∈ engine.derivations,
        derivation.name = name ∧ derivation.evaluate snapshot = metric
  noDerivation : ∀ name fault,
    let refused := name ∉ engine.derivationNames ∧ fault = .notRegistered .derivation name
    (engine.previous name = .error fault ↔ refused) ∧
      (engine.dependencies name = .error fault ↔ refused) ∧
      (engine.resetDerivation name = .error fault ↔ refused)
  noRule : ∀ name fault, engine.isActive name = .error fault ↔
    name ∉ engine.rules.map Rule.name ∧ fault = .notRegistered .threshold name
  noMetric : ∀ snapshot metrics after, engine.recompute snapshot = .ok (metrics, after) →
    ∀ name, metrics.get? name = none ↔ name ∉ engine.derivationNames

/-- Distinct names are all it takes: each question by name is a search, and a
search by a name that does not repeat has one possible answer. -/
theorem answersByName_of_distinct {engine : Engine} (distinct : engine.derivationNames.Nodup)
    (rulesDistinct : Distinct engine) : engine.AnswersByName := by
  have found : ∀ {β : Type} (part : Derivation → β) (name : String) (result : β),
      (engine.derivation name).map part = .ok result ↔
        ∃ derivation ∈ engine.derivations, derivation.name = name ∧ part derivation = result := by
    intro β part name result
    simp only [map_eq_ok_iff, derivation_eq_ok_iff_mem distinct, and_assoc]
  constructor
  · exact found Derivation.previous
  · exact found Derivation.dependsOn
  · intro name after
    have known : (∃ derivation, engine.derivation name = .ok derivation) ↔
        name ∈ engine.derivationNames := by
      simp only [derivation_eq_ok_iff_mem distinct, derivationNames, List.mem_map]
    rw [resetDerivation_eq_ok_iff, known, forget_eq_map distinct]
  · intro name active
    exact isActive_eq_ok_iff rulesDistinct
  · intro snapshot metrics after derived name metric
    obtain ⟨_, rfl, _⟩ := recompute_eq_ok_iff.mp derived
    have searched := get?_metricsFor engine snapshot name
    rw [metricsFor] at searched
    have one := find?_eq_some_iff_mem distinct name
    simp only [searched, Option.map_eq_some_iff, one, and_assoc]
  · intro name fault refused
    rw [previous, dependencies, map_eq_error_iff, map_eq_error_iff, resetDerivation_eq_error_iff,
      derivation_eq_error_iff]
    exact ⟨Iff.rfl, Iff.rfl, Iff.rfl⟩
  · intro name fault
    exact isActive_eq_error_iff
  · intro snapshot metrics after derived name
    obtain ⟨_, rfl, _⟩ := recompute_eq_ok_iff.mp derived
    have searched := get?_metricsFor engine snapshot name
    rw [metricsFor] at searched
    rw [searched, Option.map_eq_none_iff, List.find?_eq_none, derivationNames]
    simp

/-- At every point of every run, an engine holds exactly what was registered
successfully, in the order of registration. The names of derivations are not
empty and distinct, and so are those of rules; each rule names a channel and has
a finite limit. A derivation declares the channels it was given without
repetitions, each at its first place. A registration succeeds exactly for a new
name and, for a rule, a sound one. It then adds one derivation that has yielded
nothing, or one inactive rule, at the end, and changes nothing else; a refused
one changes nothing. So whatever is asked by name is answered for the one entry
registered under it, and refused or absent exactly when there is none.

A registration that succeeds has found its name new, so no name ever stands
twice, and with distinct names a search has one answer. -/
theorem registrations_answer_by_name (calls : List Call) :
    let engine := run calls {}
    engine.Keeps (along perform declarations calls {}) (along perform adoptions calls {}) ∧
      engine.AnswersByName ∧
      (∀ name dependsOn compute after,
        engine.registerDerivation name dependsOn compute = .ok after ↔
          name ≠ "" ∧ name ∉ engine.derivationNames ∧
            { engine with
              derivations := engine.derivations ++
                [⟨name, atFirstPlaces dependsOn, compute, none⟩] } = after) ∧
      (∀ rule after, engine.registerRule rule = .ok after ↔
        rule.name ≠ "" ∧ rule.channel ≠ "" ∧ rule.limit.isFinite = true ∧
          rule.name ∉ engine.rules.map Rule.name ∧
          { engine with watches := engine.watches ++ [⟨rule, false⟩] } = after) ∧
      (∀ name dependsOn compute fault,
        engine.registerDerivation name dependsOn compute = .error fault →
          engine.perform (.registerDerivation name dependsOn compute) = engine) ∧
      ∀ rule fault, engine.registerRule rule = .error fault →
        engine.perform (.registerRule rule) = engine := by
  intro engine
  have kept := keeps_run calls
  have initial : Distinct {} := List.nodup_nil
  refine ⟨kept, answersByName_of_distinct kept.derivationsDistinct (distinct_run initial calls),
    ?_, ?_, ?_, ?_⟩
  · intro name dependsOn compute after
    rw [registerDerivation_eq_ok_iff, firstOccurrences_eq]
    simp [derivationNames]
  · intro rule after
    rw [registerRule_eq_ok_iff, Rule.check_eq_ok_iff]
    simp [rules, and_assoc]
  · intro name dependsOn compute fault refused
    rw [perform, refused, standing_error]
  · intro rule fault refused
    rw [perform, refused, standing_error]

end Engine

end Telemetry
