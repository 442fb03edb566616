import Telemetry.Proofs.DerivationTurns
import Telemetry.Proofs.ReferenceClosure

/-!
# A formula finds what it declares

Three functions take the built-in formulas apart on their own: one lists the
channels, one refuses malformed constants and operands, and one computes. Here
they are held against each other. What a formula computes depends on the
channels it lists and on nothing else that a snapshot shows, and a formula that
was not refused finds all its inputs among them.

An engine derives only where no declared channel is missing. So a derivation
that was registered from a checked formula never reports a missing input, and
neither does an application whose derivations come from a checked configuration.
-/
namespace Telemetry

/-- A float that is made a value is a number or not finite, and never a missing
input. -/
theorem Value.ofFloat_ne_missing (number : Float) :
    Value.ofFloat number ≠ .undefined .missingInput := by
  unfold Value.ofFloat
  split <;> simp

/-- An operation on two numbers misses no input. Where it yields no number it is
for another reason. -/
theorem Operation.evaluate_ne_missing (operation : Operation) (left right : Float) :
    operation.evaluate left right ≠ .undefined .missingInput := by
  cases operation with
  | divide | sqrt =>
    simp only [evaluate]
    split
    · simp
    · exact Value.ofFloat_ne_missing _
  | add | subtract | multiply | power => exact Value.ofFloat_ne_missing _

/-- Replacing a number that is not finite brings up no missing input, since it
is replaced by another kind of undefined value. -/
theorem Value.normalize_ne_missing {value : Value} (given : value ≠ .undefined .missingInput) :
    value.normalize ≠ .undefined .missingInput := by
  cases value with
  | number x => exact ofFloat_ne_missing x
  | undefined why => exact given

/-- A declared channel reads as in the snapshot, and only the others are
hidden. -/
theorem Context.reading_view {snapshot : Snapshot} {declared : List String} {channel : String}
    (member : channel ∈ declared) (previous : Option Metric) :
    (Context.view snapshot declared previous).reading channel = snapshot.get? channel :=
  if_pos member

namespace Formula

variable {formula : Formula}

/-- A formula computes from the channels it lists and from its own past. Each
constructor asks for its own channels, and these are the ones that it lists. -/
theorem compute_congr {first second : Context}
    (sameReadings : ∀ channel ∈ formula.dependsOn, first.reading channel = second.reading channel)
    (samePast : first.previous = second.previous) :
    formula.compute first = formula.compute second := by
  have lastNumber : first.lastNumber = second.lastNumber := by
    rw [Context.lastNumber, Context.lastNumber, samePast]
  have samples : first.samples = second.samples := by
    rw [Context.samples, Context.samples, samePast]
  cases formula with
  | linear channel scale offset =>
    have reading := sameReadings channel (by simp [dependsOn])
    simp only [compute, reading]
  | ratio numerator denominator scale =>
    have above := sameReadings numerator (by simp [dependsOn])
    have below := sameReadings denominator (by simp [dependsOn])
    simp only [compute, above, below]
  | runningAverage channel =>
    have reading := sameReadings channel (by simp [dependsOn])
    simp only [compute, reading, lastNumber, samples]
  | calculator operation left right =>
    have leftReading := sameReadings left (by simp [dependsOn])
    cases right with
    | none => simp only [compute, leftReading]
    | some name =>
      have rightReading := sameReadings name (by simp [dependsOn])
      simp only [compute, leftReading, rightReading]

/-- A checked formula whose channels all read finds every input. The check has
made sure of a right operand where the operation needs one. -/
theorem compute_ne_missing {name : String} {context : Context}
    (checked : formula.check name = .ok ())
    (present : ∀ channel ∈ formula.dependsOn, ∃ value, context.reading channel = some value) :
    formula.compute context ≠ .undefined .missingInput := by
  cases formula with
  | linear channel scale offset =>
    obtain ⟨value, read⟩ := present channel (by simp [dependsOn])
    simp only [compute, read]
    exact Value.ofFloat_ne_missing _
  | ratio numerator denominator scale =>
    obtain ⟨above, readAbove⟩ := present numerator (by simp [dependsOn])
    obtain ⟨below, readBelow⟩ := present denominator (by simp [dependsOn])
    have quotient := Operation.evaluate_ne_missing .divide above below
    simp only [compute, readAbove, readBelow]
    cases divided : Operation.divide.evaluate above below with
    | number value => exact Value.ofFloat_ne_missing _
    | undefined why => rwa [divided] at quotient
  | runningAverage channel =>
    obtain ⟨value, read⟩ := present channel (by simp [dependsOn])
    simp only [compute, read]
    split
    · exact Value.ofFloat_ne_missing _
    · simp
  | calculator operation left right =>
    obtain ⟨first, readFirst⟩ := present left (by simp [dependsOn])
    simp only [compute, readFirst]
    cases right with
    | some other =>
      obtain ⟨second, readSecond⟩ := present other (by simp [dependsOn])
      simp only [readSecond]
      exact operation.evaluate_ne_missing first second
    | none =>
      -- Only a root passes the check without a right operand.
      have unary : operation.isUnary = true := by
        by_contra binary
        simp [check, binary] at checked
      simp only [unary, ↓reduceIte]
      exact operation.evaluate_ne_missing first 0

end Formula

/-- A derivation that computes a checked formula over channels that it
declares. -/
def Derivation.Formulaic (derivation : Derivation) : Prop :=
  ∃ formula : Formula, (∃ name, formula.check name = .ok ()) ∧
    (∀ channel ∈ formula.dependsOn, channel ∈ derivation.dependsOn) ∧
    derivation.compute = formula.compute

/-- A metric that does not stand for a missing input. -/
def Metric.Informed (metric : Metric) : Prop := metric.value ≠ .undefined .missingInput

/-- Where no declared channel is missing, a checked formula yields an informed
metric, because normalizing does not make it uninformed. -/
theorem Derivation.Formulaic.informed {derivation : Derivation} (formulaic : derivation.Formulaic)
    {snapshot : Snapshot}
    (present : ∀ channel ∈ derivation.dependsOn, snapshot.contains channel = true) :
    (derivation.evaluate snapshot).Informed := by
  obtain ⟨formula, ⟨name, checked⟩, declared, computes⟩ := formulaic
  apply Value.normalize_ne_missing
  rw [computes]
  refine Formula.compute_ne_missing checked fun channel listed => ?_
  rw [Context.reading_view (declared channel listed)]
  exact Option.isSome_iff_exists.mp (present channel (declared channel listed))

namespace Engine

/-- Every derivation computes a checked formula, and remembers no missing
input. -/
structure Supplied (engine : Engine) : Prop where
  formulas : ∀ derivation ∈ engine.derivations, derivation.Formulaic
  previous : ∀ derivation ∈ engine.derivations, ∀ metric, derivation.previous = some metric →
    metric.Informed

/-- A call that registers derivations from checked formulas only, each over the
channels that the formula lists. -/
def Call.Formulaic : Call → Prop
  | registerDerivation _ dependsOn compute =>
    ∃ formula : Formula, (∃ name, formula.check name = .ok ()) ∧ dependsOn = formula.dependsOn ∧
      compute = formula.compute
  | _ => True

/-- The metrics that a call on the engine hands out. -/
def yielded (engine : Engine) : Call → List Metrics
  | .recompute snapshot =>
    match engine.recompute snapshot with
    | .ok (metrics, _) => [metrics]
    | .error _ => []
  | _ => []

/-- An engine without derivations is supplied. -/
theorem supplied_empty : Supplied {} where
  formulas := List.forall_mem_nil _
  previous := List.forall_mem_nil _

/-- Whether an engine is supplied depends on its derivations only. -/
theorem Supplied.of_derivations {engine after : Engine} (supplied : engine.Supplied)
    (same : after.derivations = engine.derivations) : after.Supplied where
  formulas := by
    rw [same]
    exact supplied.formulas
  previous := by
    rw [same]
    exact supplied.previous

/-- Deriving where nothing is missing yields informed metrics, derivation by
derivation. -/
theorem Supplied.evaluate {engine : Engine} (supplied : engine.Supplied) {snapshot : Snapshot}
    (present : engine.missingDependency? snapshot.contains = none) {derivation : Derivation}
    (member : derivation ∈ engine.derivations) : (derivation.evaluate snapshot).Informed :=
  (supplied.formulas derivation member).informed
    (missingDependency?_eq_none_iff.mp present derivation member)

/-- Remembering informed metrics keeps an engine supplied, whatever becomes of
the rules. -/
theorem Supplied.remember {engine : Engine} (supplied : engine.Supplied) {snapshot : Snapshot}
    (present : engine.missingDependency? snapshot.contains = none) (watches : List Watch) :
    Supplied ⟨engine.derivations.map (.remember snapshot), watches⟩ where
  formulas := by
    intro derivation member
    obtain ⟨former, within, rfl⟩ := List.mem_map.mp member
    exact supplied.formulas former within
  previous := by
    intro derivation member metric held
    obtain ⟨former, within, rfl⟩ := List.mem_map.mp member
    cases held
    exact supplied.evaluate present within

/-- Forgetting a metric keeps an engine supplied, since there is one less to be
informed. -/
theorem Supplied.forget {engine : Engine} (supplied : engine.Supplied) (name : String) :
    Supplied ⟨forget name engine.derivations, engine.watches⟩ where
  formulas := by
    intro derivation member
    rcases mem_forget member with former | ⟨former, within, rfl⟩
    · exact supplied.formulas derivation former
    · exact supplied.formulas former within
  previous := by
    intro derivation member metric held
    rcases mem_forget member with former | ⟨former, within, rfl⟩
    · exact supplied.previous derivation former metric held
    · cases held

/-- A derivation from a checked formula keeps an engine supplied. It remembers
nothing yet. -/
theorem Supplied.register {engine : Engine} (supplied : engine.Supplied) {derivation : Derivation}
    (formulaic : derivation.Formulaic) (fresh : derivation.previous = none) :
    Supplied ⟨engine.derivations ++ [derivation], engine.watches⟩ where
  formulas := by
    intro other member
    rcases List.mem_append.mp member with former | new
    · exact supplied.formulas other former
    · rw [List.mem_singleton.mp new]
      exact formulaic
  previous := by
    intro other member metric held
    rcases List.mem_append.mp member with former | new
    · exact supplied.previous other former metric held
    · rw [List.mem_singleton.mp new, fresh] at held
      cases held

/-- A call keeps an engine supplied, and what it hands out is informed. A
recomputation is refused before it would derive from a snapshot in which
something is missing. -/
theorem supplied_perform {engine : Engine} (supplied : engine.Supplied) {call : Call}
    (formulaic : call.Formulaic) :
    (engine.perform call).Supplied ∧
      ∀ metrics ∈ engine.yielded call, ∀ metric ∈ metrics.metrics, metric.Informed := by
  cases call with
  | registerDerivation name dependsOn compute =>
    refine ⟨?_, List.forall_mem_nil _⟩
    cases outcome : engine.registerDerivation name dependsOn compute with
    | error fault =>
      rw [perform, outcome]
      exact supplied
    | ok after =>
      rw [perform, outcome]
      obtain ⟨_, _, rfl⟩ := registerDerivation_eq_ok_iff.mp outcome
      obtain ⟨formula, checked, rfl, rfl⟩ := formulaic
      exact supplied.register ⟨formula, checked, fun _ => mem_firstOccurrences_iff.mpr, rfl⟩ rfl
  | registerRule rule =>
    refine ⟨?_, List.forall_mem_nil _⟩
    cases outcome : engine.registerRule rule with
    | error fault =>
      rw [perform, outcome]
      exact supplied
    | ok after =>
      rw [perform, outcome]
      obtain ⟨_, _, rfl⟩ := registerRule_eq_ok_iff.mp outcome
      exact supplied.of_derivations rfl
  | recompute snapshot =>
    cases outcome : engine.recompute snapshot with
    | error fault =>
      rw [perform, yielded, outcome]
      exact ⟨supplied, List.forall_mem_nil _⟩
    | ok result =>
      rw [perform, yielded, outcome]
      obtain ⟨metrics, after⟩ := result
      obtain ⟨present, rfl, rfl⟩ := recompute_eq_ok_iff.mp outcome
      refine ⟨supplied.remember present engine.watches, ?_⟩
      intro metrics member metric listed
      rw [List.mem_singleton.mp member] at listed
      obtain ⟨derivation, within, rfl⟩ := List.mem_map.mp listed
      exact supplied.evaluate present within
  | watch snapshot =>
    refine ⟨?_, List.forall_mem_nil _⟩
    cases outcome : engine.watch snapshot with
    | error fault =>
      rw [perform, outcome]
      exact supplied
    | ok result =>
      rw [perform, outcome]
      obtain ⟨transitions, after⟩ := result
      obtain ⟨_, _, rfl⟩ := watch_eq_ok_iff.mp outcome
      exact supplied.of_derivations rfl
  | resetDerivation name =>
    refine ⟨?_, List.forall_mem_nil _⟩
    cases outcome : engine.resetDerivation name with
    | error fault =>
      rw [perform, outcome]
      exact supplied
    | ok after =>
      rw [perform, outcome]
      obtain ⟨_, rfl⟩ := resetDerivation_eq_ok_iff.mp outcome
      exact supplied.forget name

end Engine

namespace Simulator

variable {σ : Type}

/-- A call that registers derivations from checked formulas only. -/
def Call.Formulaic : Call σ → Prop
  | .registerDerivation name dependsOn compute =>
    Engine.Call.Formulaic (.registerDerivation name dependsOn compute)
  | .engine call => call.Formulaic
  | _ => True

/-- The metrics that a call hands out: those of a step's report, or of a
recomputation made on the engine itself. -/
def yielded (state : Simulator σ × σ) : Call σ → List Metrics
  | @Call.step _ _ _ source => (reported state (.step source)).map TickReport.derived
  | .engine call => state.1.engine.yielded call
  | _ => []

/-- A call keeps the engine of a simulator supplied, and what it hands out is
informed. What it does to the engine is a call of the engine, or the two parts
of a step. -/
theorem supplied_perform {state : Simulator σ × σ} (indexed : state.1.store.Indexed)
    (supplied : state.1.engine.Supplied) {call : Call σ} (formulaic : call.Formulaic) :
    (perform state call).1.engine.Supplied ∧
      ∀ metrics ∈ yielded state call, ∀ metric ∈ metrics.metrics, metric.Informed := by
  cases call with
  | registerChannel spec =>
    refine ⟨supplied.of_derivations ?_, List.forall_mem_nil _⟩
    cases outcome : state.1.store.register spec <;> simp [perform, registerChannel, outcome]
  | registerDerivation name dependsOn compute =>
    refine ⟨?_, List.forall_mem_nil _⟩
    have registers : Engine.Call.Formulaic (.registerDerivation name dependsOn compute) := formulaic
    simp only [perform, standing_registerDerivation]
    split
    · exact (Engine.supplied_perform supplied registers).1
    · exact supplied
  | registerRule rule =>
    refine ⟨?_, List.forall_mem_nil _⟩
    have registers : Engine.Call.Formulaic (.registerRule rule) := trivial
    simp only [perform, standing_registerRule]
    split
    · exact (Engine.supplied_perform supplied registers).1
    · exact supplied
  | engine made => exact Engine.supplied_perform supplied formulaic
  | step source =>
    cases checked : state.1.checkInputs with
    | error fault =>
      obtain ⟨done, silent⟩ := step_of_unchecked indexed checked source
      rw [done, yielded, silent]
      exact ⟨supplied, List.forall_mem_nil _⟩
    | ok =>
      obtain ⟨done, spoken⟩ := step_of_checked indexed checked source
      have names := Store.names_tick state.1.store source
      have index := Store.index_tick state.1.store source
      have present := ((checkInputs_eq_ok_iff indexed names index).mp checked).1
      rw [done, yielded, spoken]
      refine ⟨supplied.remember present _, ?_⟩
      intro metrics member metric listed
      rw [List.map_singleton, List.mem_singleton] at member
      rw [member] at listed
      obtain ⟨derivation, within, rfl⟩ := List.mem_map.mp listed
      exact supplied.evaluate present within
  | setValue name value =>
    refine ⟨?_, List.forall_mem_nil _⟩
    rcases setValue_cases indexed name value with ⟨done, _⟩ | ⟨_, _, _, _, done, _⟩
    · rw [done]
      exact supplied
    · rw [done]
      exact supplied.of_derivations rfl
  | raiseAlert name message severity =>
    rw [perform_raiseAlert]
    exact ⟨supplied, List.forall_mem_nil _⟩
  | clearAlert name =>
    refine ⟨?_, List.forall_mem_nil _⟩
    simp only [perform, clearAlert]
    split <;> exact supplied
  | subscribe _ _ | unsubscribe _ | setHook _ | notify _ _ =>
    exact ⟨supplied, List.forall_mem_nil _⟩

/-- So does a run of such calls. -/
theorem supplied_run {state : Simulator σ × σ} (reachable : state.1.store.Reachable)
    (supplied : state.1.engine.Supplied) {calls : List (Call σ)}
    (formulaic : ∀ call ∈ calls, call.Formulaic) : (run calls state).1.engine.Supplied := by
  induction calls generalizing state with
  | nil => exact supplied
  | cons call rest inductionHypothesis =>
    refine inductionHypothesis (reachable_perform reachable call) ?_ ?_
    · exact (supplied_perform reachable.indexed supplied (formulaic call List.mem_cons_self)).1
    · exact fun later member => formulaic later (List.mem_cons_of_mem call member)

end Simulator

/-- A configuration passes its check exactly when each of its parts does. The
parts are looked at one after another, and the first that fails ends the
check. -/
theorem Config.check_eq_ok_iff {config : Config} :
    config.check = .ok () ↔
      config.version = supportedVersion ∧ config.channels ≠ [] ∧
        (∀ spec ∈ config.channels, spec.check = .ok ()) ∧
        (∀ derivation ∈ config.derivations,
          derivation.formula.check derivation.name = .ok ()) ∧
        (∀ rule ∈ config.rules, rule.check = .ok ()) ∧ config.pace.check = .ok () := by
  unfold Config.check
  simp only [throw_eq_error, error_bind, guarded_eq_ok_iff, forM_bind_eq_ok_iff, ne_eq,
    Decidable.not_not, List.isEmpty_iff]

namespace App

variable {ω ρ : Type}

/-- A call that registers derivations from checked formulas only. -/
def Call.Formulaic (call : Call ω) : Prop := call.inner.Formulaic

/-- The calls by which a checked configuration is brought up register checked
formulas, each over the channels that it lists. -/
theorem formulaic_setup {config : Config} (checked : config.check = .ok ()) :
    ∀ call ∈ registrations config ++ attachments config.pace.jsonSnapshots ++
        (startAlerts config : List (Simulator.Call (Board ω))),
      call.Formulaic := by
  obtain ⟨_, _, _, formulas, _⟩ := Config.check_eq_ok_iff.mp checked
  intro call member
  simp only [registrations, attachments, startAlerts, List.mem_append, List.mem_cons,
    List.mem_map] at member
  rcases member with (((⟨_, _, rfl⟩ | ⟨derivation, listed, rfl⟩) | ⟨_, _, rfl⟩) | rfl |
    ⟨_, _, rfl⟩) | ⟨_, _, rfl⟩
  · trivial
  · exact ⟨derivation.formula, ⟨derivation.name, formulas derivation listed⟩, rfl, rfl⟩
  all_goals trivial

/-- An application of a checked configuration starts supplied, as its calls are
such ones. -/
theorem supplied_ofConfig {config : Config} (checked : config.check = .ok ()) {source : ρ}
    {guest : ω} {app : App ω ρ} (built : ofConfig config source guest = .ok app) :
    app.simulator.store.Reachable ∧ app.simulator.engine.Supplied := by
  have started := run_of_ofConfig built
  have supplied : (Simulator.run _ ({}, ({ guest := guest } : Board ω))).1.engine.Supplied :=
    Simulator.supplied_run ⟨[], rfl⟩ Engine.supplied_empty (formulaic_setup checked)
  rw [started] at supplied
  exact ⟨(closed_ofConfig built).1, supplied⟩

/-- Whatever is derived in a run of a supplied application is informed, and the
application stays supplied. -/
theorem supplied_serve {state : Simulator (Board ω) × Board ω}
    (reachable : state.1.store.Reachable) (supplied : state.1.engine.Supplied)
    {calls : List (Call ω)} (formulaic : ∀ call ∈ calls, call.Formulaic) :
    (serve calls state).1.engine.Supplied ∧
      ∀ metrics ∈ gathered Simulator.yielded calls state, ∀ metric ∈ metrics.metrics,
        metric.Informed := by
  induction calls generalizing state with
  | nil => exact ⟨supplied, List.forall_mem_nil _⟩
  | cons call rest inductionHypothesis =>
    obtain ⟨still, informed⟩ := Simulator.supplied_perform reachable.indexed supplied
      (formulaic call List.mem_cons_self)
    rw [← simulator_perform] at still
    obtain ⟨after, later⟩ := inductionHypothesis (reachable_perform reachable call) still
      fun other member => formulaic other (List.mem_cons_of_mem call member)
    refine ⟨after, ?_⟩
    intro metrics member
    rcases List.mem_append.mp member with now | further
    · exact informed metrics now
    · exact later metrics further

end App

/-- A formula that passes its check, seen through the channels that it lists,
computes what it would compute if every channel of the snapshot were declared,
and the result is never a missing input, whatever the formula remembers, as long
as the snapshot has the channels. So an application of a checked configuration
hands out no metric for want of an input and remembers none, in every run that
registers no derivations but from formulas that pass their check.

The three functions are compared constructor by constructor. That an engine
stays supplied is an invariant of runs, and such an engine derives only where
nothing is missing. -/
theorem declared_inputs_suffice :
    (∀ (formula : Formula) (name : String), formula.check name = .ok () →
      ∀ (snapshot : Snapshot), (∀ channel ∈ formula.dependsOn, snapshot.contains channel = true) →
      ∀ previous,
        formula.compute (.view snapshot formula.dependsOn previous) =
            formula.compute (.view snapshot (snapshot.readings.map Prod.fst) previous) ∧
          formula.compute (.view snapshot formula.dependsOn previous) ≠
            .undefined .missingInput) ∧
      ∀ {ω ρ : Type} {config : Config} {source : ρ} {guest : ω} {app : App ω ρ},
        config.check = .ok () → App.ofConfig config source guest = .ok app →
        ∀ calls : List (App.Call ω), (∀ call ∈ calls, call.Formulaic) →
          let state := (app.simulator, app.outside)
          (∀ metrics ∈ App.gathered Simulator.yielded calls state, ∀ metric ∈ metrics.metrics,
              metric.value ≠ .undefined .missingInput) ∧
            ∀ name metric, (App.serve calls state).1.engine.previous name = .ok (some metric) →
              metric.value ≠ .undefined .missingInput := by
  constructor
  · intro formula name checked snapshot present previous
    constructor
    · refine Formula.compute_congr (fun channel listed => ?_) rfl
      have covered := (snapshot.contains_iff channel).mp (present channel listed)
      rw [Context.reading_view listed, Context.reading_view covered]
    · refine Formula.compute_ne_missing checked fun channel listed => ?_
      rw [Context.reading_view listed]
      exact Option.isSome_iff_exists.mp (present channel listed)
  · intro ω ρ config source guest app checked built calls formulaic state
    obtain ⟨reachable, supplied⟩ := App.supplied_ofConfig checked built
    have served : (App.serve calls state).1.engine.Supplied ∧ _ :=
      App.supplied_serve reachable supplied formulaic
    refine ⟨served.2, ?_⟩
    intro name metric held
    cases found : (App.serve calls state).1.engine.derivation name with
    | error fault =>
      rw [Engine.previous, found] at held
      cases held
    | ok derivation =>
      rw [Engine.previous_of_derivation found] at held
      have member := List.mem_of_find?_eq_some (Engine.derivation_eq_ok_iff.mp found)
      exact served.1.previous derivation member metric (Except.ok.inj held)

/-- A root without a right operand and a quotient of a channel by itself. A step
derives both, the engine is asked to derive them from a snapshot that has no
oven, and the root starts afresh. -/
theorem declared_inputs_suffice_root :
    let oven : ChannelSpec := ⟨"oven", 20, 0, 300, 5⟩
    let root : Formula := .calculator .sqrt "oven" none
    let share : Formula := .ratio "oven" "oven" 100
    let config : Config :=
      { version := 1, channels := [oven], derivations := [⟨"root", root⟩, ⟨"share", share⟩] }
    let calls : List (App.Call Unit) :=
      [.step (⟨1⟩ : Fixed) .zero, .simulator (.engine (.recompute (.ofPairs 9 [("hall", 20)]))),
        .simulator (.engine (.resetDerivation "root")), .step (⟨-1⟩ : Fixed) .zero]
    config.check = .ok () ∧ (∀ call ∈ calls, call.Formulaic) ∧
      ∃ app : App Unit Fixed, App.ofConfig config ⟨1⟩ () = .ok app ∧
        ∀ metrics ∈ App.gathered Simulator.yielded calls (app.simulator, app.outside),
          ∀ metric ∈ metrics.metrics, metric.value ≠ .undefined .missingInput := by
  intro oven root share config calls
  have sound : oven.check = .ok () := ChannelSpec.check_eq_ok_iff.mpr (by decide)
  have checked : config.check = .ok () := by
    refine Config.check_eq_ok_iff.mpr ⟨rfl, by simp [config], ?_, ?_, by simp [config], rfl⟩
    · simpa [config] using sound
    · have finite : (100 : Float).isFinite = true := by decide
      simp [config, root, share, Formula.check, Operation.isUnary, finite]
  have formulaic : ∀ call ∈ calls, call.Formulaic := by
    intro call member
    simp only [calls, List.mem_cons, List.not_mem_nil, or_false] at member
    rcases member with rfl | rfl | rfl | rfl <;> trivial
  let store : Store :=
    { channels := #[.ofSpec oven], index := ({} : Std.HashMap _ _).insert "oven" 0 }
  let rooted : Engine := { derivations := [⟨"root", ["oven"], root.compute, none⟩] }
  let complete : Engine :=
    { derivations := rooted.derivations ++ [⟨"share", ["oven"], share.compute, none⟩] }
  have stored : Store.register {} oven = .ok store :=
    Store.register_eq_ok_iff.mpr ⟨sound, by simp [Store.contains], rfl⟩
  have known : store.contains "oven" = true := by simp [store, Store.contains]
  have first : Engine.registerDerivation {} "root" ["oven"] root.compute = .ok rooted :=
    Engine.registerDerivation_eq_ok_iff.mpr ⟨by decide, by simp, rfl⟩
  have second : rooted.registerDerivation "share" ["oven", "oven"] share.compute = .ok complete :=
    Engine.registerDerivation_eq_ok_iff.mpr
      ⟨by decide, by simp [rooted], by simp [complete, rooted, firstOccurrences]⟩
  have registered : App.register config =
      .ok ({ store := store, engine := complete } : Simulator (Board Unit)) := by
    have rootChannels : root.dependsOn = ["oven"] := rfl
    have shareChannels : share.dependsOn = ["oven", "oven"] := rfl
    simp [App.register, config, Simulator.registerChannel, stored, Simulator.registerDerivation,
      rootChannels, shareChannels, known, first, second]
  obtain ⟨app, built⟩ : ∃ app : App Unit Fixed, App.ofConfig config ⟨1⟩ () = .ok app :=
    ⟨_, App.ofConfig_eq_ok_iff.mpr ⟨_, registered, rfl⟩⟩
  exact ⟨checked, formulaic, app, built,
    (declared_inputs_suffice.2 checked built calls formulaic).1⟩

end Telemetry
