import Telemetry.Proofs.EngineRuns

/-!
# A run of the engine, seen from one derivation

A call can do four things to the derivations: leave them alone, add one under a
new name at the end, evaluate all of them against one snapshot, or let one of
them start afresh. Seen from one derivation, a run is then a list of turns. At
each turn the derivation was evaluated along with all others, or was reset;
every other call, refused ones included, passes it by. Its name, what it
declares and its formula never change.

An invariant of one derivation along a run is proved from the two kinds of turns
alone, by `derivation_run`.
-/
namespace Telemetry

/-- What happens to one derivation of an engine: metrics are derived from a
snapshot, or it is reset. -/
inductive Turn where
  | derived (snapshot : Snapshot) (metrics : Metrics)
  | reset

/-- A derivation that starts afresh. -/
def Derivation.renew (derivation : Derivation) : Derivation := { derivation with previous := none }

namespace Engine

/-- The turns that a call brings to the derivation of a name. A refused call
brings none. -/
def turns (name : String) (engine : Engine) : Call → List Turn
  | .recompute snapshot =>
    match engine.recompute snapshot with
    | .ok (metrics, _) => [.derived snapshot metrics]
    | .error _ => []
  | .resetDerivation other =>
    match engine.resetDerivation other with
    | .ok _ => if other = name then [.reset] else []
    | .error _ => []
  | _ => []

/-- The name of the derivation that a call has registered, if it has. -/
def introduced (engine : Engine) : Call → List String
  | .registerDerivation name dependsOn compute =>
    match engine.registerDerivation name dependsOn compute with
    | .ok _ => [name]
    | .error _ => []
  | _ => []

/-- The metrics that a successful recomputation yields, one for each
derivation. -/
def metricsFor (engine : Engine) (snapshot : Snapshot) : Metrics :=
  ⟨snapshot.tick, engine.derivations.map fun derivation => derivation.evaluate snapshot⟩

/-- Everything a call can do to the derivations. The four cases are all that
invariants of derivations have to look at; refused calls and calls about rules
fall under the first. -/
theorem derivations_cases (engine : Engine) (call : Call) :
    ((engine.perform call).derivations = engine.derivations ∧ engine.introduced call = [] ∧
        ∀ name, engine.turns name call = []) ∨
      (∃ new, (∀ derivation ∈ engine.derivations, derivation.name ≠ new.name) ∧
        new.previous = none ∧
        (engine.perform call).derivations = engine.derivations ++ [new] ∧
        engine.introduced call = [new.name] ∧ ∀ name, engine.turns name call = []) ∨
      (∃ snapshot, engine.missingDependency? snapshot.contains = none ∧
        (engine.perform call).derivations = engine.derivations.map (.remember snapshot) ∧
        engine.introduced call = [] ∧
        ∀ name, engine.turns name call = [.derived snapshot (engine.metricsFor snapshot)]) ∨
      (∃ wanted, (engine.perform call).derivations = forget wanted engine.derivations ∧
        engine.introduced call = [] ∧
        ∀ name, engine.turns name call = if wanted = name then [.reset] else []) := by
  cases call with
  | registerDerivation name dependsOn compute =>
    cases outcome : engine.registerDerivation name dependsOn compute with
    | error fault =>
      exact .inl ⟨by simp [perform, outcome], by simp [introduced, outcome], fun _ => rfl⟩
    | ok after =>
      obtain ⟨_, fresh, rfl⟩ := registerDerivation_eq_ok_iff.mp outcome
      refine .inr (.inl ⟨⟨name, firstOccurrences dependsOn, compute, none⟩, fresh, rfl, ?_, ?_,
        fun _ => rfl⟩)
      · simp [perform, outcome]
      · simp [introduced, outcome]
  | registerRule rule =>
    refine .inl ⟨?_, rfl, fun _ => rfl⟩
    cases outcome : engine.registerRule rule with
    | error fault => simp [perform, outcome]
    | ok after =>
      obtain ⟨_, _, rfl⟩ := registerRule_eq_ok_iff.mp outcome
      simp [perform, outcome]
  | recompute snapshot =>
    cases outcome : engine.recompute snapshot with
    | error fault =>
      exact .inl ⟨by simp [perform, outcome, Except.map], rfl, fun _ => by simp [turns, outcome]⟩
    | ok result =>
      obtain ⟨metrics, after⟩ := result
      obtain ⟨present, rfl, rfl⟩ := recompute_eq_ok_iff.mp outcome
      refine .inr (.inr (.inl ⟨snapshot, present, ?_, rfl, fun _ => ?_⟩))
      · simp [perform, outcome, Except.map]
      · simp [turns, outcome, metricsFor]
  | watch snapshot =>
    refine .inl ⟨?_, rfl, fun _ => rfl⟩
    cases outcome : engine.watch snapshot with
    | error fault => simp [perform, outcome, Except.map]
    | ok result =>
      obtain ⟨transitions, after⟩ := result
      obtain ⟨_, _, rfl⟩ := watch_eq_ok_iff.mp outcome
      simp [perform, outcome, Except.map]
  | resetDerivation wanted =>
    cases outcome : engine.resetDerivation wanted with
    | error fault =>
      exact .inl ⟨by simp [perform, outcome], rfl, fun _ => by simp [turns, outcome]⟩
    | ok after =>
      obtain ⟨_, rfl⟩ := resetDerivation_eq_ok_iff.mp outcome
      refine .inr (.inr (.inr ⟨wanted, ?_, rfl, fun _ => ?_⟩))
      · simp [perform, outcome]
      · simp [turns, outcome]

section Search

variable {derivations : List Derivation} {name : String}

/-- The metrics of a recomputation are searched as the derivations are, because
each metric carries the name of its derivation and stands at its place. -/
theorem get?_metricsFor (engine : Engine) (snapshot : Snapshot) (name : String) :
    (engine.metricsFor snapshot).get? name =
      (engine.derivations.find? fun derivation => derivation.name = name).map fun derivation =>
        derivation.evaluate snapshot := by
  rw [metricsFor, Metrics.get?, List.find?_map]
  rfl

/-- The derivation of a name is the first one that has it. Names of derivations
are distinct in every engine that calls lead to, but the search does not depend
on it. -/
theorem derivation_eq_ok_iff {engine : Engine} {derivation : Derivation} :
    engine.derivation name = .ok derivation ↔
      (engine.derivations.find? fun other => other.name = name) = some derivation := by
  unfold Engine.derivation
  cases engine.derivations.find? fun other => other.name = name <;> simp

/-- The previous metric of a derivation that was found by name is the one it
carries: asking for it is asking for the derivation first. -/
theorem previous_of_derivation {engine : Engine} {name : String} {derivation : Derivation}
    (held : engine.derivation name = .ok derivation) :
    engine.previous name = .ok derivation.previous := by
  rw [Engine.previous, held]
  rfl

/-- Resetting leaves everything of the derivations that a fresh start leaves. A
name, a formula and what is declared are such parts, and the previous metric is
not. -/
theorem map_forget {β : Type} {part : Derivation → β}
    (kept : ∀ derivation : Derivation, part derivation.renew = part derivation) (name : String)
    (derivations : List Derivation) :
    (forget name derivations).map part = derivations.map part := by
  induction derivations with
  | nil => rfl
  | cons first rest inductionHypothesis =>
    rw [forget]
    split
    · rw [List.map_cons, List.map_cons, ← kept first, Derivation.renew]
    · rw [List.map_cons, List.map_cons, inductionHypothesis]

/-- After a reset each derivation is what it was, or starts afresh. Only the
first derivation of the name is renewed, so the induction has nothing left to do
once it is found. -/
theorem mem_forget {name : String} {derivations : List Derivation} {derivation : Derivation}
    (member : derivation ∈ forget name derivations) :
    derivation ∈ derivations ∨ ∃ former ∈ derivations, derivation = former.renew := by
  induction derivations with
  | nil => exact .inl member
  | cons first rest inductionHypothesis =>
    rw [forget] at member
    split at member
    · rcases List.mem_cons.mp member with rfl | later
      · exact .inr ⟨first, List.mem_cons_self, rfl⟩
      · exact .inl (List.mem_cons_of_mem _ later)
    · rcases List.mem_cons.mp member with rfl | later
      · exact .inl List.mem_cons_self
      · rcases inductionHypothesis later with within | ⟨former, within, renewed⟩
        · exact .inl (List.mem_cons_of_mem _ within)
        · exact .inr ⟨former, List.mem_cons_of_mem _ within, renewed⟩

/-- Resetting a name renews the derivation that a search for the name finds.
Both the reset and the search stop at the first derivation of the name. -/
theorem find?_forget_self :
    ((forget name derivations).find? fun other => other.name = name) =
      (derivations.find? fun other => other.name = name).map Derivation.renew := by
  induction derivations with
  | nil => rfl
  | cons first rest inductionHypothesis =>
    by_cases named : first.name = name
    · simp [forget, named, Derivation.renew]
    · simp [forget, named, inductionHypothesis]

/-- It leaves what a search for another name finds, since the one derivation
that it renews keeps its name and is passed over. -/
theorem find?_forget_of_ne {other : String} (different : other ≠ name) :
    ((forget other derivations).find? fun derivation => derivation.name = name) =
      derivations.find? fun derivation => derivation.name = name := by
  induction derivations with
  | nil => rfl
  | cons first rest inductionHypothesis =>
    rw [forget]
    split
    case isTrue named =>
      have unnamed : ¬ first.name = name := fun same => different (named.symm.trans same)
      rw [List.find?_cons_of_neg (by simpa using unnamed),
        List.find?_cons_of_neg (by simpa using unnamed)]
    case isFalse => rw [List.find?_cons, List.find?_cons, inductionHypothesis]

end Search

/-- Everything a call can do to one derivation: pass it by, reset it, or
evaluate it with all others, and in the last case its inputs were all there. -/
theorem turns_cases {engine : Engine} {name : String} {derivation : Derivation}
    (held : engine.derivation name = .ok derivation) (call : Call) :
    (engine.turns name call = [] ∧ (engine.perform call).derivation name = .ok derivation) ∨
      (engine.turns name call = [.reset] ∧
        (engine.perform call).derivation name = .ok derivation.renew) ∨
      (∃ snapshot metrics, engine.turns name call = [.derived snapshot metrics] ∧
        (engine.perform call).derivation name = .ok (derivation.remember snapshot) ∧
        metrics.get? name = some (derivation.evaluate snapshot) ∧
        ∀ channel ∈ derivation.dependsOn, snapshot.contains channel = true) := by
  rw [derivation_eq_ok_iff] at held
  simp only [derivation_eq_ok_iff]
  rcases derivations_cases engine call with ⟨same, _, none⟩ | ⟨new, _, _, added, _, none⟩ |
    ⟨snapshot, present, moved, _, taken⟩ | ⟨wanted, moved, _, taken⟩
  · exact .inl ⟨none name, by rw [same, held]⟩
  · exact .inl ⟨none name, by rw [added, List.find?_append, held]; rfl⟩
  · refine .inr (.inr ⟨snapshot, _, taken name, ?_, ?_, ?_⟩)
    · rw [moved, List.find?_map]
      exact congrArg (Option.map _) held
    · rw [get?_metricsFor, held, Option.map_some]
    · exact missingDependency?_eq_none_iff.mp present _ (List.mem_of_find?_eq_some held)
  · rw [moved, taken name]
    by_cases same : wanted = name
    · subst same
      refine .inr (.inl ⟨if_pos rfl, ?_⟩)
      rw [find?_forget_self, held, Option.map_some]
    · exact .inl ⟨if_neg same, by rw [find?_forget_of_ne same, held]⟩

/-- What survives each turn of a derivation survives a run, whatever calls it is
made of. The past is part of the invariant, so that it can speak of earlier
turns. -/
theorem derivation_run {name : String} (Holds : List Turn → Derivation → Prop)
    (derived : ∀ {past derivation snapshot metrics}, Holds past derivation →
      metrics.get? name = some (derivation.evaluate snapshot) →
      (∀ channel ∈ derivation.dependsOn, snapshot.contains channel = true) →
      Holds (past ++ [.derived snapshot metrics]) (derivation.remember snapshot))
    (reset : ∀ {past derivation}, Holds past derivation →
      Holds (past ++ [.reset]) derivation.renew)
    {engine : Engine} {derivation : Derivation}
    (held : engine.derivation name = .ok derivation) (start : Holds [] derivation)
    (calls : List Call) :
    ∃ final, (run calls engine).derivation name = .ok final ∧
      Holds (along perform (turns name) calls engine) final := by
  -- The calls that are left go on from any past, not only from an empty one.
  suffices onward : ∀ past, Holds past derivation →
      ∃ final, (run calls engine).derivation name = .ok final ∧
        Holds (past ++ along perform (turns name) calls engine) final by
    exact onward [] start
  clear start
  induction calls generalizing engine derivation with
  | nil =>
    intro past holds
    exact ⟨derivation, held, by rwa [along, List.append_nil]⟩
  | cons call rest inductionHypothesis =>
    intro past holds
    have first : run (call :: rest) engine = run rest (engine.perform call) := rfl
    rw [first, along, ← List.append_assoc]
    rcases turns_cases held call with ⟨taken, after⟩ | ⟨taken, after⟩ |
      ⟨snapshot, metrics, taken, after, reported, present⟩
    · rw [taken, List.append_nil]
      exact inductionHypothesis after past holds
    · rw [taken]
      exact inductionHypothesis after _ (reset holds)
    · rw [taken]
      exact inductionHypothesis after _ (derived holds reported present)

/-- A derivation that was just registered is found under its name, and has
yielded nothing. The name was new, so the search passes over everything before
it. -/
theorem derivation_of_registered {engine registered : Engine} {name : String}
    {dependsOn : List String} {compute : Context → Value}
    (accepted : engine.registerDerivation name dependsOn compute = .ok registered) :
    registered.derivation name = .ok ⟨name, firstOccurrences dependsOn, compute, none⟩ := by
  obtain ⟨_, fresh, rfl⟩ := registerDerivation_eq_ok_iff.mp accepted
  rw [derivation_eq_ok_iff, List.find?_append]
  have absent : (engine.derivations.find? fun other => other.name = name) = none := by
    rw [List.find?_eq_none]
    intro derivation member
    simpa using fresh derivation member
  simp [absent]

end Engine

end Telemetry
