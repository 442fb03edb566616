import Telemetry.Config.Dashboard
import Telemetry.Proofs.FloatOrder
import Telemetry.Proofs.FormulaInputs

/-!
# Which configurations are accepted

A configuration is looked at twice. Its check takes every part on its own;
bringing it up registers the parts one after another, and only there do names
meet each other. Some conditions are looked at both times, some in one of the
two places only. Together they accept the configurations that are well formed,
said here without regard to who looks at what and in which order.

Channels, derivations and rules are taken in alike: a part is accepted exactly
when it fits and no part before it has its name. Taken in one after another, the
parts are accepted exactly when each fits and no two share a name, and what is
there in the end are the parts in their order.
-/
namespace Telemetry

/-- A channel that can walk: a name, finite numbers, a start between the bounds
and a step that is not negative. -/
@[mk_iff]
structure ChannelSpec.WellFormed (spec : ChannelSpec) : Prop where
  named : spec.name ≠ ""
  finite : ∀ number ∈ [spec.initial, spec.lower, spec.upper, spec.maxStep],
    number.isFinite = true
  above : spec.lower ≤ spec.initial
  below : spec.initial ≤ spec.upper
  step : 0 ≤ spec.maxStep

/-- Finite constants, and an operand for every operation that needs a second
one. -/
def Formula.WellFormed : Formula → Prop
  | linear _ scale offset => scale.isFinite = true ∧ offset.isFinite = true
  | ratio _ _ scale => scale.isFinite = true
  | runningAverage _ => True
  | calculator operation _ right => operation.isUnary = false → right.isSome = true

/-- A named derivation from channels among `known`. -/
@[mk_iff]
structure NamedFormula.WellFormed (known : List String) (derivation : NamedFormula) : Prop where
  named : derivation.name ≠ ""
  formula : derivation.formula.WellFormed
  channels : ∀ channel ∈ derivation.formula.dependsOn, channel ∈ known

/-- A named rule with a limit for a channel among `known`. -/
@[mk_iff]
structure Rule.WellFormed (known : List String) (rule : Rule) : Prop where
  named : rule.name ≠ ""
  finite : rule.limit.isFinite = true
  channel : rule.channel ∈ known

/-- The names of the channels that a configuration declares. -/
def Config.channelNames (config : Config) : List String := config.channels.map ChannelSpec.name

/-- A configuration that makes sense as a whole. -/
@[mk_iff]
structure Config.WellFormed (config : Config) : Prop where
  version : config.version = 1
  inhabited : config.channels ≠ []
  channels : ∀ spec ∈ config.channels, spec.WellFormed
  channelNames : config.channelNames.Nodup
  derivations : ∀ derivation ∈ config.derivations, derivation.WellFormed config.channelNames
  derivationNames : (config.derivations.map NamedFormula.name).Nodup
  rules : ∀ rule ∈ config.rules, rule.WellFormed config.channelNames
  ruleNames : (config.rules.map Rule.name).Nodup
  shortest : 10 ≤ config.pace.period
  longest : config.pace.period ≤ 60000
  limit : config.pace.maxTicks ≠ some 0

instance (spec : ChannelSpec) : Decidable spec.WellFormed :=
  decidable_of_iff _ (ChannelSpec.wellFormed_iff spec).symm

instance (formula : Formula) : Decidable formula.WellFormed :=
  match formula with
  | .linear _ scale offset =>
    inferInstanceAs (Decidable (scale.isFinite = true ∧ offset.isFinite = true))
  | .ratio _ _ scale => inferInstanceAs (Decidable (scale.isFinite = true))
  | .runningAverage _ => inferInstanceAs (Decidable True)
  | .calculator operation _ right =>
    inferInstanceAs (Decidable (operation.isUnary = false → right.isSome = true))

instance (known : List String) (derivation : NamedFormula) :
    Decidable (derivation.WellFormed known) :=
  decidable_of_iff _ (NamedFormula.wellFormed_iff known derivation).symm

instance (known : List String) (rule : Rule) : Decidable (rule.WellFormed known) :=
  decidable_of_iff _ (Rule.wellFormed_iff known rule).symm

instance (config : Config) : Decidable config.WellFormed :=
  decidable_of_iff _ (Config.wellFormed_iff config).symm

section Parts

/-- The check of a channel finds all that keeps it from being well formed. It
also refuses crossed bounds, between which no start can lie. -/
theorem ChannelSpec.check_eq_ok_iff_wellFormed {spec : ChannelSpec} :
    spec.check = .ok () ↔ spec.WellFormed := by
  rw [check_eq_ok_iff, wellFormed_iff]
  simp only [List.forall_mem_cons, List.not_mem_nil, false_implies, implies_true, and_true,
    String.isEmpty_eq_false_iff]
  constructor
  · rintro ⟨named, initial, lower, upper, maxStep, -, ⟨above, below⟩, step⟩
    have zero : (0 : Float).isNaN = false := by decide
    exact ⟨named, ⟨initial, lower, upper, maxStep⟩, above, below,
      Number.le_of_not_lt (Number.isNaN_of_isFinite maxStep) zero step⟩
  · rintro ⟨named, ⟨initial, lower, upper, maxStep⟩, above, below, step⟩
    have zero : (0 : Float).isNaN = false := by decide
    have lowest := Number.isNaN_of_isFinite lower
    have highest := Number.isNaN_of_isFinite upper
    have uncrossed : spec.lower ≤ spec.upper :=
      Number.le_trans lowest (Number.isNaN_of_isFinite initial) highest above below
    exact ⟨named, initial, lower, upper, maxStep,
      (Number.le_iff_not_lt highest lowest).mp uncrossed, ⟨above, below⟩,
      (Number.le_iff_not_lt (Number.isNaN_of_isFinite maxStep) zero).mp step⟩

/-- The check of a formula finds all that keeps it from being well formed. The
name of its derivation is there for the fault only. -/
theorem Formula.check_eq_ok_iff_wellFormed {formula : Formula} {name : String} :
    formula.check name = .ok () ↔ formula.WellFormed := by
  cases formula with
  | linear channel scale offset => simp [check, WellFormed, guarded_eq_ok_iff]
  | ratio numerator denominator scale =>
    cases finite : scale.isFinite <;> simp [check, WellFormed, finite]
  | runningAverage channel => simp [check, WellFormed]
  | calculator operation left right =>
    cases right <;> simp [check, WellFormed]

/-- The check of a rule also refuses an empty channel, which no known channel
is. So for a rule on a known channel this refuses nothing more. -/
theorem Rule.check_eq_ok_and_known_iff {rule : Rule} {known : List String}
    (named : ∀ name ∈ known, name ≠ "") :
    rule.check = .ok () ∧ rule.channel ∈ known ↔ rule.WellFormed known := by
  simp only [check_eq_ok_iff, wellFormed_iff, String.isEmpty_eq_false_iff]
  constructor
  · rintro ⟨⟨ruleNamed, _, finite⟩, member⟩
    exact ⟨ruleNamed, finite, member⟩
  · rintro ⟨ruleNamed, finite, member⟩
    exact ⟨⟨ruleNamed, named rule.channel member, finite⟩, member⟩

/-- Exactly the paces that are accepted: a period within its limits, and a
number of ticks that is not zero if there is one. -/
theorem Pace.check_eq_ok_iff {pace : Pace} :
    pace.check = .ok () ↔ 10 ≤ pace.period ∧ pace.period ≤ 60000 ∧ pace.maxTicks ≠ some 0 := by
  unfold check
  rw [guarded_eq_ok_iff, guarded_eq_ok_iff]
  simp only [leastPeriod, greatestPeriod, not_or, not_lt, and_true, and_assoc, ne_eq]

end Parts

/-- A state that takes in parts one after another. What it is after some parts
is said by `Took`; the next part is accepted exactly when it fits and its name
is new. -/
structure Intake {s α : Type} (attempt : s → α → Except Fault s) (Took : List α → s → Prop)
    (Fits : α → Prop) (name : α → String) : Prop where
  accepts_iff : ∀ {done : List α} {state : s} (part : α), Took done state →
    ((∃ after, attempt state part = .ok after) ↔ Fits part ∧ name part ∉ done.map name)
  takes : ∀ {done : List α} {state after : s} {part : α}, Took done state →
    attempt state part = .ok after → Took (done ++ [part]) after

namespace Intake

variable {s α : Type} {attempt : s → α → Except Fault s} {Took : List α → s → Prop}
  {Fits : α → Prop} {name : α → String}

/-- All parts are there in the end, in their order and behind those that were
there before. -/
theorem takes_all (intake : Intake attempt Took Fits name) {done parts : List α} {state after : s}
    (took : Took done state) (taken : parts.foldlM attempt state = .ok after) :
    Took (done ++ parts) after := by
  induction parts generalizing done state with
  | nil =>
    cases taken
    rwa [List.append_nil]
  | cons part rest inductionHypothesis =>
    rw [List.foldlM_cons, bind_eq_ok_iff] at taken
    obtain ⟨next, first, others⟩ := taken
    rw [List.append_cons]
    exact inductionHypothesis (intake.takes took first) others

/-- No part is refused exactly when each fits and no two of them share a name. A
name is compared with those before it, and by the end each pair has been
compared once. -/
theorem accepts_all_iff (intake : Intake attempt Took Fits name) {done : List α} {state : s}
    (took : Took done state) (distinct : (done.map name).Nodup) (parts : List α) :
    (∃ after, parts.foldlM attempt state = .ok after) ↔
      (∀ part ∈ parts, Fits part) ∧ ((done ++ parts).map name).Nodup := by
  induction parts generalizing done state with
  | nil => simpa using distinct
  | cons part rest inductionHypothesis =>
    have accepts := intake.accepts_iff part took
    simp only [List.foldlM_cons, bind_eq_ok_iff, List.forall_mem_cons]
    constructor
    · rintro ⟨after, next, first, others⟩
      obtain ⟨fits, fresh⟩ := accepts.mp ⟨next, first⟩
      have grown : ((done ++ [part]).map name).Nodup := by
        rw [List.map_append, List.map_singleton, ← List.concat_eq_append]
        exact List.Nodup.concat fresh distinct
      obtain ⟨othersFit, allDistinct⟩ :=
        (inductionHypothesis (intake.takes took first) grown).mp ⟨after, others⟩
      rw [List.append_cons]
      exact ⟨⟨fits, othersFit⟩, allDistinct⟩
    · rintro ⟨⟨fits, othersFit⟩, allDistinct⟩
      rw [List.append_cons] at allDistinct
      have grown : ((done ++ [part]).map name).Nodup := by
        rw [List.map_append] at allDistinct
        exact allDistinct.of_append_left
      have fresh : name part ∉ done.map name := by
        rw [List.map_append, List.nodup_append] at grown
        intro known
        exact grown.2.2 _ known _ (by simp) rfl
      obtain ⟨next, first⟩ := accepts.mpr ⟨fits, fresh⟩
      obtain ⟨after, others⟩ :=
        (inductionHypothesis (intake.takes took first) grown).mpr ⟨othersFit, allDistinct⟩
      exact ⟨after, next, first, others⟩

end Intake

/-- The derivation that a configuration asks for, before it has yielded
anything. -/
def NamedFormula.derivation (derivation : NamedFormula) : Derivation :=
  ⟨derivation.name, firstOccurrences derivation.formula.dependsOn, derivation.formula.compute, none⟩

namespace Simulator

variable {σ : Type}

/-- A simulator on which these parts were registered, in this order, and nothing
else was done. -/
structure Holds (channels : List ChannelSpec) (derivations : List NamedFormula)
    (rules : List Rule) (simulator : Simulator σ) : Prop where
  indexed : simulator.store.Indexed
  channels : simulator.store.channels.toList = channels.map Channel.ofSpec
  ticks : simulator.store.ticks = 0
  derivations : simulator.engine.derivations = derivations.map NamedFormula.derivation
  watches : simulator.engine.watches = rules.map fun rule => ⟨rule, false⟩
  observers : simulator.observers = {}
  alerts : simulator.alerts = []
  failures : simulator.listenerFailures = 0

section Registration

variable {channels : List ChannelSpec} {derivations : List NamedFormula} {rules : List Rule}
  {simulator after : Simulator σ}

/-- A new simulator holds nothing. -/
theorem holds_empty : Holds [] [] [] ({} : Simulator σ) :=
  ⟨Store.indexed_empty, rfl, rfl, rfl, rfl, rfl, rfl, rfl⟩

/-- The names that are known are those of the channels, so a part can be checked
against the configuration and not against the store. -/
theorem Holds.contains_iff (holds : Holds channels derivations rules simulator) (name : String) :
    simulator.store.contains name = true ↔ name ∈ channels.map ChannelSpec.name := by
  rw [Store.contains_iff holds.indexed, Store.names, holds.channels, List.map_map]
  rfl

/-- A channel is registered on the simulator exactly when the store takes it. -/
theorem registerChannel_eq_ok_iff {spec : ChannelSpec} :
    simulator.registerChannel spec = .ok after ↔
      ∃ store, simulator.store.register spec = .ok store ∧
        { simulator with store := store } = after := by
  unfold registerChannel
  rw [bind_eq_ok_iff]
  simp

/-- A derivation is registered on the simulator exactly when its channels are
known and the engine takes it. -/
theorem registerDerivation_eq_ok_iff {name : String} {dependsOn : List String}
    {compute : Context → Value} :
    simulator.registerDerivation name dependsOn compute = .ok after ↔
      (∀ channel ∈ dependsOn, simulator.store.contains channel = true) ∧
        ∃ engine, simulator.engine.registerDerivation name dependsOn compute = .ok engine ∧
          { simulator with engine := engine } = after := by
  unfold registerDerivation
  cases found : dependsOn.find? fun channel => !simulator.store.contains channel with
  | some channel =>
    have unknown := List.find?_some found
    have member := List.mem_of_find?_eq_some found
    simp only [reduceCtorEq, false_iff, not_and]
    intro known
    simp [known channel member] at unknown
  | none =>
    have known : ∀ channel ∈ dependsOn, simulator.store.contains channel = true := by
      simpa using found
    rw [bind_eq_ok_iff, and_iff_right known]
    simp

/-- A rule is registered on the simulator exactly when its channel is known and
the engine takes it. -/
theorem registerRule_eq_ok_iff {rule : Rule} :
    simulator.registerRule rule = .ok after ↔
      simulator.store.contains rule.channel = true ∧
        ∃ engine, simulator.engine.registerRule rule = .ok engine ∧
          { simulator with engine := engine } = after := by
  unfold registerRule
  by_cases known : simulator.store.contains rule.channel = true
  · rw [if_pos known, bind_eq_ok_iff]
    simp [known]
  · simp [known]

/-- Channels are taken in. One fits when it is well formed, for the store makes
the check of its specification. -/
theorem intake_channels :
    Intake (registerChannel (σ := σ)) (fun done => Holds done [] []) ChannelSpec.WellFormed
      ChannelSpec.name where
  accepts_iff := by
    intro done state spec holds
    simp only [registerChannel_eq_ok_iff, Store.register_eq_ok_iff,
      ChannelSpec.check_eq_ok_iff_wellFormed, ← holds.contains_iff, Bool.not_eq_true]
    constructor
    · rintro ⟨_, _, ⟨wellFormed, fresh, _⟩, _⟩
      exact ⟨wellFormed, fresh⟩
    · rintro ⟨wellFormed, fresh⟩
      exact ⟨_, _, ⟨wellFormed, fresh, rfl⟩, rfl⟩
  takes := by
    intro done state after spec holds taken
    obtain ⟨store, registered, rfl⟩ := registerChannel_eq_ok_iff.mp taken
    have indexed := Store.indexed_register holds.indexed registered
    obtain ⟨_, _, rfl⟩ := Store.register_eq_ok_iff.mp registered
    exact { holds with indexed := indexed, channels := by simp [holds.channels] }

/-- Derivations are taken in, once the channels are there. Whether their
formulas are well formed is not looked at here but in the check of the
configuration. -/
theorem intake_derivations (channels : List ChannelSpec) :
    Intake
      (fun (simulator : Simulator σ) derivation =>
        simulator.registerDerivation derivation.name derivation.formula.dependsOn
          derivation.formula.compute)
      (fun done => Holds channels done [])
      (fun derivation => derivation.name ≠ "" ∧
        ∀ channel ∈ derivation.formula.dependsOn, channel ∈ channels.map ChannelSpec.name)
      NamedFormula.name where
  accepts_iff := by
    intro done state derivation holds
    have names : (∀ other ∈ state.engine.derivations, other.name ≠ derivation.name) ↔
        derivation.name ∉ done.map NamedFormula.name := by
      simp [holds.derivations, NamedFormula.derivation]
    simp only [registerDerivation_eq_ok_iff, Engine.registerDerivation_eq_ok_iff, names,
      holds.contains_iff, String.isEmpty_eq_false_iff]
    constructor
    · rintro ⟨_, known, _, ⟨named, fresh, _⟩, _⟩
      exact ⟨⟨named, known⟩, fresh⟩
    · rintro ⟨⟨named, known⟩, fresh⟩
      exact ⟨_, known, _, ⟨named, fresh, rfl⟩, rfl⟩
  takes := by
    intro done state after derivation holds taken
    obtain ⟨_, engine, registered, rfl⟩ := registerDerivation_eq_ok_iff.mp taken
    obtain ⟨_, _, rfl⟩ := Engine.registerDerivation_eq_ok_iff.mp registered
    exact { holds with
      derivations := by simp [holds.derivations, NamedFormula.derivation] }

/-- So are rules, whose check is made a second time here. -/
theorem intake_rules (channels : List ChannelSpec) (derivations : List NamedFormula) :
    Intake (registerRule (σ := σ)) (fun done => Holds channels derivations done)
      (fun rule => rule.check = .ok () ∧ rule.channel ∈ channels.map ChannelSpec.name)
      Rule.name where
  accepts_iff := by
    intro done state rule holds
    have names : (∀ watch ∈ state.engine.watches, watch.rule.name ≠ rule.name) ↔
        rule.name ∉ done.map Rule.name := by
      simp [holds.watches]
    simp only [registerRule_eq_ok_iff, Engine.registerRule_eq_ok_iff, names, holds.contains_iff]
    constructor
    · rintro ⟨_, known, _, ⟨checked, fresh, _⟩, _⟩
      exact ⟨⟨checked, known⟩, fresh⟩
    · rintro ⟨⟨checked, known⟩, fresh⟩
      exact ⟨_, known, _, ⟨checked, fresh, rfl⟩, rfl⟩
  takes := by
    intro done state after rule holds taken
    obtain ⟨_, engine, registered, rfl⟩ := registerRule_eq_ok_iff.mp taken
    obtain ⟨_, _, rfl⟩ := Engine.registerRule_eq_ok_iff.mp registered
    exact { holds with watches := by simp [holds.watches] }

end Registration

end Simulator

namespace App

variable {ω ρ : Type} {config : Config}

/-- A simulator that a configuration was registered on holds its parts. Each of
the three kinds is taken in on top of what the kinds before have left. -/
theorem holds_of_register {simulator : Simulator (Board ω)}
    (registered : register config = .ok simulator) :
    simulator.Holds config.channels config.derivations config.rules := by
  unfold register at registered
  simp only [bind_eq_ok_iff] at registered
  obtain ⟨withChannels, channels, withDerivations, derivations, rules⟩ := registered
  have first := Simulator.intake_channels.takes_all Simulator.holds_empty channels
  have second := (Simulator.intake_derivations config.channels).takes_all first derivations
  exact (Simulator.intake_rules config.channels config.derivations).takes_all second rules

/-- Exactly what it takes to register a configuration. Well-formed formulas and
a sound pace are not part of it. -/
theorem register_accepts_iff :
    (∃ simulator : Simulator (Board ω), register config = .ok simulator) ↔
      ((∀ spec ∈ config.channels, spec.WellFormed) ∧ config.channelNames.Nodup) ∧
      ((∀ derivation ∈ config.derivations, derivation.name ≠ "" ∧
          ∀ channel ∈ derivation.formula.dependsOn, channel ∈ config.channelNames) ∧
        (config.derivations.map NamedFormula.name).Nodup) ∧
      (∀ rule ∈ config.rules, rule.check = .ok () ∧ rule.channel ∈ config.channelNames) ∧
        (config.rules.map Rule.name).Nodup := by
  have channelsAccepted := Simulator.intake_channels.accepts_all_iff
    (Simulator.holds_empty (σ := Board ω)) List.nodup_nil config.channels
  unfold register
  simp only [bind_eq_ok_iff]
  constructor
  · rintro ⟨simulator, withChannels, channels, withDerivations, derivations, rules⟩
    have first := Simulator.intake_channels.takes_all Simulator.holds_empty channels
    have second := (Simulator.intake_derivations config.channels).takes_all first derivations
    exact ⟨channelsAccepted.mp ⟨_, channels⟩,
      ((Simulator.intake_derivations config.channels).accepts_all_iff first List.nodup_nil _).mp
        ⟨_, derivations⟩,
      ((Simulator.intake_rules config.channels config.derivations).accepts_all_iff second
        List.nodup_nil _).mp ⟨_, rules⟩⟩
  · rintro ⟨channelsFit, derivationsFit, rulesFit⟩
    obtain ⟨withChannels, channels⟩ := channelsAccepted.mpr channelsFit
    have first := Simulator.intake_channels.takes_all Simulator.holds_empty channels
    obtain ⟨withDerivations, derivations⟩ :=
      ((Simulator.intake_derivations config.channels).accepts_all_iff first List.nodup_nil _).mpr
        derivationsFit
    have second := (Simulator.intake_derivations config.channels).takes_all first derivations
    obtain ⟨simulator, rules⟩ :=
      ((Simulator.intake_rules config.channels config.derivations).accepts_all_iff second
        List.nodup_nil _).mpr rulesFit
    exact ⟨simulator, withChannels, channels, withDerivations, derivations, rules⟩

/-- The alert that the start raises, on a clock that has not moved. -/
def startAlert (alert : StartupAlert) : Alert :=
  ⟨alert.name, alert.message, alert.severity, some 0⟩

/-- The application's own listeners take every alert without a failure. -/
theorem dispatch_alert (jsonSnapshots : Bool) (alert : Alert) (board : Board ω) :
    (dispatch (attach jsonSnapshots {}).observers [.alert alert] board).1 = 0 := by
  cases jsonSnapshots <;> rfl

/-- Raising the alerts of the start adds them to the alerts, and does nothing
else to a simulator whose clock has not moved. -/
theorem run_startAlerts (jsonSnapshots : Bool) (alerts : List StartupAlert)
    (state : Simulator (Board ω) × Board ω) (start : state.1.store.ticks = 0)
    (observers : state.1.observers = (attach jsonSnapshots {}).observers) :
    (Simulator.run (alerts.map fun alert => .raiseAlert alert.name alert.message alert.severity)
      state).1 = { state.1 with alerts := state.1.alerts ++ alerts.map startAlert } := by
  induction alerts generalizing state with
  | nil => simp [Simulator.run]
  | cons alert rest inductionHypothesis =>
    have raised : (Simulator.perform state
          (.raiseAlert alert.name alert.message alert.severity)).1 =
        { state.1 with alerts := state.1.alerts ++ [startAlert alert] } := by
      rw [Simulator.perform_raiseAlert, start, observers]
      simp only [dispatch_alert, Nat.add_zero, startAlert]
    rw [List.map_cons, Simulator.run, List.foldl_cons]
    refine (inductionHypothesis _ ?_ ?_).trans ?_
    · rw [raised]
      exact start
    · rw [raised]
      exact observers
    · rw [raised]
      simp

/-- An application starts with the parts of its configuration in their order,
and with its alerts. -/
theorem simulator_ofConfig {source : ρ} {guest : ω} {app : App ω ρ}
    (built : ofConfig config source guest = .ok app) :
    ∃ simulator : Simulator (Board ω),
      simulator.Holds config.channels config.derivations config.rules ∧
        app.simulator = { attach config.pace.jsonSnapshots simulator with
          alerts := config.alerts.map startAlert } := by
  obtain ⟨simulator, registered, rfl⟩ := ofConfig_eq_ok_iff.mp built
  have holds := holds_of_register registered
  refine ⟨simulator, holds, ?_⟩
  have raised := run_startAlerts config.pace.jsonSnapshots config.alerts
    (attach config.pace.jsonSnapshots simulator, { guest := guest }) holds.ticks
    (by simp only [attach, holds.observers])
  have silent : (attach config.pace.jsonSnapshots simulator).alerts = [] := holds.alerts
  rw [silent, List.nil_append] at raised
  exact raised

end App

/-- Well-formed channels have names that are not empty. -/
theorem Config.WellFormed.channel_named {config : Config} (channels : ∀ spec ∈ config.channels,
    spec.WellFormed) : ∀ name ∈ config.channelNames, name ≠ "" := by
  intro name member
  obtain ⟨spec, listed, rfl⟩ := List.mem_map.mp member
  exact (channels spec listed).named

/-- Nothing ill formed slips between the check and the registration, and nothing
well formed is refused by either. -/
theorem Config.checked_and_registered_iff {ω : Type} {config : Config} :
    config.check = .ok () ∧
        (∃ simulator : Simulator (Board ω), App.register config = .ok simulator) ↔
      config.WellFormed := by
  rw [App.register_accepts_iff, check_eq_ok_iff, Pace.check_eq_ok_iff]
  constructor
  · rintro ⟨⟨version, inhabited, -, formulas, -, shortest, longest, limit⟩,
      ⟨channels, channelNames⟩, ⟨derivations, derivationNames⟩, rules, ruleNames⟩
    refine { version, inhabited, channels, channelNames, derivationNames, ruleNames, shortest,
             longest, limit, derivations := ?_, rules := ?_ }
    · intro derivation member
      obtain ⟨named, known⟩ := derivations derivation member
      exact ⟨named, Formula.check_eq_ok_iff_wellFormed.mp (formulas derivation member), known⟩
    · intro rule member
      exact (Rule.check_eq_ok_and_known_iff (WellFormed.channel_named channels)).mp
        (rules rule member)
  · intro wellFormed
    have channels : ∀ spec ∈ config.channels, spec.check = .ok () := fun spec member =>
      ChannelSpec.check_eq_ok_iff_wellFormed.mpr (wellFormed.channels spec member)
    have formulas : ∀ derivation ∈ config.derivations,
        derivation.formula.check derivation.name = .ok () := fun derivation member =>
      Formula.check_eq_ok_iff_wellFormed.mpr (wellFormed.derivations derivation member).formula
    have rules : ∀ rule ∈ config.rules,
        rule.check = .ok () ∧ rule.channel ∈ config.channelNames := fun rule member =>
      (Rule.check_eq_ok_and_known_iff (WellFormed.channel_named wellFormed.channels)).mpr
        (wellFormed.rules rule member)
    refine ⟨⟨wellFormed.version, wellFormed.inhabited, channels, formulas,
        fun rule member => (rules rule member).1, wellFormed.shortest, wellFormed.longest,
        wellFormed.limit⟩, ⟨wellFormed.channels, wellFormed.channelNames⟩,
      ⟨?_, wellFormed.derivationNames⟩, rules, wellFormed.ruleNames⟩
    intro derivation member
    have sound := wellFormed.derivations derivation member
    exact ⟨sound.named, sound.channels⟩

/-- A configuration passes its check and can be brought up exactly when it is
well formed. The application then starts with the channels at their initial
values, the derivations and the rules, all in the order of the configuration,
before its first tick. No rule is active, no listener has failed, and the alerts
are those of the configuration.

What the check asks and what registering asks are put together, and each
condition of being well formed is among them. Where the application starts is
what registering has taken in. -/
theorem Config.accepted_iff_wellFormed {ω ρ : Type} (config : Config) (source : ρ) (guest : ω) :
    (config.check = .ok () ∧ (∃ app : App ω ρ, App.ofConfig config source guest = .ok app) ↔
      config.WellFormed) ∧
    ∀ app : App ω ρ, App.ofConfig config source guest = .ok app →
      app.simulator.store.channels.toList = config.channels.map Channel.ofSpec ∧
      (∀ spec ∈ config.channels, app.simulator.store.value spec.name = .ok spec.initial) ∧
      app.simulator.store.ticks = 0 ∧
      app.simulator.engine.derivations = config.derivations.map NamedFormula.derivation ∧
      app.simulator.engine.watches = config.rules.map (fun rule => ⟨rule, false⟩) ∧
      app.simulator.listenerFailures = 0 ∧
      app.simulator.activeAlerts = config.alerts.map App.startAlert := by
  constructor
  · rw [← checked_and_registered_iff (ω := ω)]
    simp [App.ofConfig_eq_ok_iff]
  · intro app built
    obtain ⟨simulator, holds, same⟩ := App.simulator_ofConfig built
    rw [same]
    refine ⟨holds.channels, ?_, holds.ticks, holds.derivations, holds.watches, holds.failures, ?_⟩
    · intro spec member
      have listed : Channel.ofSpec spec ∈ simulator.store.channels.toList := by
        rw [holds.channels]
        exact List.mem_map_of_mem member
      have found := (Store.channel?_eq_some_iff holds.indexed spec.name _).mpr ⟨listed, rfl⟩
      have stored : simulator.store.value spec.name = .ok spec.initial := by
        rw [Store.value, Store.channel, found]
        rfl
      exact stored
    · have inactive : simulator.engine.activeRules = [] := by
        simp [Engine.activeRules, holds.watches]
      have shown : (App.attach config.pace.jsonSnapshots simulator).engine = simulator.engine := rfl
      simp only [Simulator.activeAlerts, shown, inactive, List.map_nil, List.append_nil]

-- The built-in dashboard is one of them.
example : Config.dashboard.WellFormed := by decide +kernel

end Telemetry
