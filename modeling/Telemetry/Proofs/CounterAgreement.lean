import Telemetry.Proofs.BoardTallies
import Telemetry.Proofs.EngineAudits

/-!
# The counters of an application agree with its simulation

Two sides keep account of a run without looking at each other. The listeners of
the application count what they are told, and the hook what it is told. The
simulator keeps its clock, its flags, its samples and its own count of failures.
As long as nothing is derived, watched or dispatched past the simulator, every
event that moves one side is told to the other exactly once, whoever else
listens and however those calls end.
-/
namespace Telemetry

open Observer (Entry Handle Listener Registry)

namespace App

variable {ω ρ : Type}

/-- The calls under which the counters keep up: timed steps, and on the
simulator registrations, overrides, alerts, and listeners that come and go
beside `own`. -/
inductive Call.Permitted (own : List (Entry EventKind (Listener Event (Board ω)))) :
    Call ω → Prop
  | step {τ : Type} [Source τ] (source : τ) (took : Span) : Permitted own (.step source took)
  | registerChannel (spec : ChannelSpec) : Permitted own (.simulator (.registerChannel spec))
  | registerDerivation (name : String) (dependsOn : List String) (compute : Context → Value) :
    Permitted own (.simulator (.registerDerivation name dependsOn compute))
  | registerRule (rule : Rule) : Permitted own (.simulator (.registerRule rule))
  | engineDerivation (name : String) (dependsOn : List String) (compute : Context → Value) :
    Permitted own (.simulator (.engine (.registerDerivation name dependsOn compute)))
  | engineRule (rule : Rule) : Permitted own (.simulator (.engine (.registerRule rule)))
  | setValue (name : String) (value : Float) : Permitted own (.simulator (.setValue name value))
  | raiseAlert (name message : String) (severity : Severity) :
    Permitted own (.simulator (.raiseAlert name message severity))
  | clearAlert (name : String) : Permitted own (.simulator (.clearAlert name))
  /-- A listener may do what it likes, and fail, but not write to the
  metrics. -/
  | subscribe (kind : EventKind) {listener : Listener Event (Board ω)}
      (discreet : Discreet listener) : Permitted own (.simulator (.subscribe kind listener))
  | unsubscribe {handle : Handle EventKind}
      (foreign : ∀ entry ∈ own, handle.names entry = false) :
    Permitted own (.simulator (.unsubscribe handle))

/-- The two sides of the account agree after these events and these failures.
The age of a name is the number of steps since it was registered as a
derivation. -/
structure Agreeing (jsonSnapshots : Bool) (events : List Event) (failed : List EventKind)
    (age : String → Nat) (state : Simulator (Board ω) × Board ω) : Prop where
  reachable : state.1.store.Reachable
  metered : Metered jsonSnapshots state.1.observers
  shown : Shown state.1.store.ticks events failed state.2.metrics
  counted : failed.length = state.1.listenerFailures
  audited : state.1.engine.Audited events age

section Keeping

variable {jsonSnapshots : Bool} {events : List Event} {failed : List EventKind}
  {age : String → Nat} {state : Simulator (Board ω) × Board ω} {call : Call ω}

/-- The listeners of the application stay in front. Permitted listeners leave
the metrics alone, and permitted handles belong to somebody else. -/
theorem metered_perform (indexed : state.1.store.Indexed)
    (metered : Metered jsonSnapshots state.1.observers)
    (permitted : call.Permitted (ownEntries jsonSnapshots)) :
    Metered jsonSnapshots (perform state call).1.observers := by
  rw [simulator_perform, Simulator.observers_perform indexed]
  cases permitted with
  | subscribe kind discreet => exact metered.subscribe kind discreet
  | unsubscribe foreign => exact metered.unsubscribe foreign
  | step _ _ | registerChannel _ | registerDerivation _ _ _ | registerRule _
  | engineDerivation _ _ _ | engineRule _ | setValue _ _ | raiseAlert _ _ _ | clearAlert _ =>
    exact metered

/-- No permitted call dispatches past the simulator, so that every dispatch is
one of the events which a call announces. -/
theorem Call.Permitted.indirect {own : List (Entry EventKind (Listener Event (Board ω)))}
    (permitted : call.Permitted own) (kind : EventKind) (event : Event) :
    call.inner ≠ .notify kind event := by
  cases permitted <;> exact nofun

/-- The simulator's part of a call is noted event by event and failure by
failure. What it adds to the count of failures is what its dispatches have
reported. -/
theorem shown_inner (agreeing : Agreeing jsonSnapshots events failed age state)
    (permitted : call.Permitted (ownEntries jsonSnapshots)) :
    let after := Simulator.perform state call.inner
    ∃ more, (failed ++ more).length = after.1.listenerFailures ∧
      Shown state.1.store.ticks (events ++ Simulator.told state call.inner) (failed ++ more)
        after.2.metrics := by
  obtain ⟨failures, outside⟩ :=
    Simulator.dispatched_perform agreeing.reachable.indexed permitted.indirect
  obtain ⟨more, length, shown⟩ :=
    agreeing.shown.dispatch agreeing.metered (Simulator.told state call.inner)
  refine ⟨more, ?_, ?_⟩
  · rw [failures, List.length_append, agreeing.counted, length]
  · rw [outside]
    exact shown

/-- A call notes what it does to the flags and the samples. The calls that would
move them without an announcement are those made on the engine itself, which are
not permitted. -/
theorem audited_perform (agreeing : Agreeing jsonSnapshots events failed age state)
    (permitted : call.Permitted (ownEntries jsonSnapshots)) :
    (perform state call).1.engine.Audited (events ++ Simulator.told state call.inner)
      fun name => age name + (Simulator.reportedWith name state call.inner).length := by
  have audited := agreeing.audited
  have indexed := agreeing.reachable.indexed
  have idle : ∀ {call : Simulator.Call (Board ω)}, Simulator.reported state call = [] →
      (fun name => age name + (Simulator.reportedWith name state call).length) = age := by
    intro call silent
    funext name
    rw [Simulator.reportedWith, silent, ite_self]
    rfl
  rw [simulator_perform]
  cases permitted with
  | step source took => exact Simulator.audited_step indexed audited source
  | setValue name value =>
    rw [idle rfl]
    exact Simulator.audited_setValue indexed audited name value
  | registerDerivation name dependsOn compute =>
    rw [idle rfl]
    exact (Simulator.audited_registerDerivation audited name dependsOn compute).quiet rfl rfl
  | registerRule rule =>
    rw [idle rfl]
    exact (Simulator.audited_registerRule audited rule).quiet rfl rfl
  | engineDerivation name dependsOn compute =>
    rw [idle rfl]
    exact (Engine.audited_registerDerivation audited name dependsOn compute).quiet rfl rfl
  | engineRule rule =>
    rw [idle rfl]
    exact (Engine.audited_registerRule audited rule).quiet rfl rfl
  | registerChannel spec =>
    rw [idle rfl, Call.inner, Simulator.engine_registerChannel]
    exact audited.quiet rfl rfl
  | clearAlert name =>
    rw [idle rfl, Call.inner, Simulator.engine_clearAlert]
    exact audited.quiet rfl rfl
  | raiseAlert _ _ _ | subscribe _ _ | unsubscribe _ =>
    rw [idle rfl]
    exact audited.quiet rfl rfl

/-- A permitted call on the simulator is not a step, for steps are made through
the application, which times them. -/
theorem Call.Permitted.silent {own : List (Entry EventKind (Listener Event (Board ω)))}
    {inner : Simulator.Call (Board ω)} (permitted : (Call.simulator inner).Permitted own)
    (state : Simulator (Board ω) × Board ω) : Simulator.reported state inner = [] := by
  cases permitted <;> rfl

/-- A permitted call keeps both sides in step. A timed step is counted once on
the board and moves the clock by one, unless it is refused on both sides. -/
theorem agreeing_perform (agreeing : Agreeing jsonSnapshots events failed age state)
    (permitted : call.Permitted (ownEntries jsonSnapshots)) :
    ∃ more, Agreeing jsonSnapshots (events ++ Simulator.told state call.inner) (failed ++ more)
      (fun name => age name + (Simulator.reportedWith name state call.inner).length)
      (perform state call) := by
  have indexed := agreeing.reachable.indexed
  have clock : (perform state call).1.store.ticks =
      state.1.store.ticks + (Simulator.reported state call.inner).length := by
    rw [simulator_perform]
    exact Simulator.ticks_perform indexed call.inner
  obtain ⟨more, counted, shown⟩ := shown_inner agreeing permitted
  refine ⟨more, reachable_perform agreeing.reachable call,
    metered_perform indexed agreeing.metered permitted, ?_, ?_, audited_perform agreeing permitted⟩
  · rw [clock]
    cases call with
    | step source took =>
      cases checked : state.1.checkInputs with
      | error fault =>
        have silent := (Simulator.step_of_unchecked indexed checked source).2
        rw [perform_step, Call.inner, silent]
        exact shown
      | ok =>
        have spoken := (Simulator.step_of_checked indexed checked source).2
        rw [perform_step, Call.inner, spoken]
        exact shown.timed took
    | simulator inner =>
      rw [Call.inner, permitted.silent state]
      exact shown
  · rw [simulator_perform]
    exact counted

/-- So does a run of them, with the events and failures of its calls one after
another. -/
theorem agreeing_serve (agreeing : Agreeing jsonSnapshots events failed age state)
    {calls : List (Call ω)}
    (permitted : ∀ call ∈ calls, call.Permitted (ownEntries jsonSnapshots)) :
    ∃ more, Agreeing jsonSnapshots (events ++ gathered Simulator.told calls state)
      (failed ++ more)
      (fun name => age name + (gathered (Simulator.reportedWith name) calls state).length)
      (serve calls state) := by
  induction calls generalizing events failed age state with
  | nil =>
    refine ⟨[], ?_⟩
    simp only [gathered, along, List.append_nil, List.length_nil, Nat.add_zero]
    exact agreeing
  | cons call rest inductionHypothesis =>
    obtain ⟨more, next⟩ := agreeing_perform agreeing (permitted call List.mem_cons_self)
    obtain ⟨further, finished⟩ := inductionHypothesis next fun later member =>
      permitted later (List.mem_cons_of_mem call member)
    refine ⟨more ++ further, ?_⟩
    simp only [gathered, along, List.length_append, ← List.append_assoc, ← Nat.add_assoc]
    exact finished

end Keeping

/-- A simulator on which nothing but registrations has happened. -/
structure Fresh {σ : Type} (simulator : Simulator σ) : Prop where
  reachable : simulator.store.Reachable
  ticks : simulator.store.ticks = 0
  observers : simulator.observers = {}
  failures : simulator.listenerFailures = 0
  audited : simulator.engine.Audited [] fun _ => 0

/-- Registrations leave a simulator fresh, since they announce nothing and do
not move the clock. -/
theorem fresh_perform {state : Simulator (Board ω) × Board ω} (fresh : Fresh state.1)
    {config : Config} {call : Simulator.Call (Board ω)} (registers : call ∈ registrations config) :
    Fresh (Simulator.perform state call).1 := by
  have indexed := fresh.reachable.indexed
  obtain ⟨silent, untold, indirect, observers, audited⟩ :
      Simulator.reported state call = [] ∧ Simulator.told state call = [] ∧
        (∀ kind event, call ≠ .notify kind event) ∧
        (Simulator.perform state call).1.observers = state.1.observers ∧
        (Simulator.perform state call).1.engine.Audited [] fun _ => 0 := by
    simp only [registrations, List.mem_append, List.mem_map] at registers
    rcases registers with (⟨spec, _, rfl⟩ | ⟨derivation, _, rfl⟩) | ⟨rule, _, rfl⟩
    · refine ⟨rfl, rfl, by simp, Simulator.observers_perform indexed _, ?_⟩
      rw [Simulator.engine_registerChannel]
      exact fresh.audited
    · exact ⟨rfl, rfl, by simp, Simulator.observers_perform indexed _,
        Simulator.audited_registerDerivation fresh.audited _ _ _⟩
    · exact ⟨rfl, rfl, by simp, Simulator.observers_perform indexed _,
        Simulator.audited_registerRule fresh.audited rule⟩
  constructor
  · exact Simulator.reachable_perform fresh.reachable call
  · rw [Simulator.ticks_perform indexed, silent, fresh.ticks]
    rfl
  · exact observers.trans fresh.observers
  · rw [(Simulator.dispatched_perform indexed indirect).1, untold, fresh.failures]
    rfl
  · exact audited

/-- Registering a configuration does nothing else, and so leads from a new
simulator to a fresh one. -/
theorem fresh_of_register {config : Config} {simulator : Simulator (Board ω)}
    (registered : register config = .ok simulator) (board : Board ω) : Fresh simulator := by
  have start : Fresh ({} : Simulator (Board ω)) := ⟨⟨[], rfl⟩, rfl, rfl, rfl, Engine.audited_start⟩
  have held := List.foldlRecOn
    (motive := fun state : Simulator (Board ω) × Board ω => Fresh state.1)
    (registrations config) Simulator.perform (b := ({}, board)) start
    fun _ fresh _ registers => fresh_perform fresh registers
  have run := run_registrations registered board
  rw [Simulator.run] at run
  rw [run] at held
  exact held

/-- Nobody listens before the application attaches its own listeners, hence they
get the numbers that they would get in an empty registry. -/
theorem observers_attach {config : Config} {simulator : Simulator (Board ω)}
    (registered : register config = .ok simulator) (jsonSnapshots : Bool) (board : Board ω) :
    (attach jsonSnapshots simulator).observers = (attach jsonSnapshots {}).observers := by
  simp only [attach, (fresh_of_register registered board).observers]

/-- An application starts in agreement, before any of its alerts is raised.
Nothing was told and nothing is shown. -/
theorem agreeing_attach {config : Config} {simulator : Simulator (Board ω)}
    (registered : register config = .ok simulator) (jsonSnapshots : Bool) (guest : ω) :
    Agreeing jsonSnapshots [] [] (fun _ => 0)
      (attach jsonSnapshots simulator, ({ guest := guest } : Board ω)) := by
  have fresh := fresh_of_register registered { guest := guest }
  refine ⟨fresh.reachable, ?_, ?_, fresh.failures.symm, fresh.audited⟩
  · rw [observers_attach registered jsonSnapshots { guest := guest }]
    refine ⟨by cases jsonSnapshots <;> rfl, [], (List.append_nil _).symm, ?_⟩
    exact fun _ member => nomatch member
  · have clock : (attach jsonSnapshots simulator).store.ticks = 0 := fresh.ticks
    rw [clock]
    exact shown_start

/-- The alerts that the calls of a run raise, by severity. -/
def raised (calls : List (Call ω)) : List Severity := calls.flatMap fun call => call.inner.raised

/-- What a run announces is what it returns, by kinds of events, as is the case
for each of its calls. -/
theorem flatMap_told (calls : List (Call ω)) (state : Simulator (Board ω) × Board ω) :
    let events := gathered Simulator.told calls state
    events.flatMap Event.moved = (gathered Simulator.returned calls state).map Transition.label ∧
      events.flatMap Event.severities = raised calls ∧
      events.flatMap Event.snapshots =
        (gathered Simulator.reported calls state).map TickReport.snapshot := by
  refine ⟨?_, ?_, ?_⟩
  · rw [gathered, gathered, along_map]
    exact along_flatMap perform (fun state call => (Simulator.flatMap_told state call.inner).1) ..
  · have listed : ∀ state : Simulator (Board ω) × Board ω,
        along perform (fun _ call => call.inner.raised) calls state = raised calls := by
      intro state
      induction calls generalizing state with
      | nil => rfl
      | cons call rest inductionHypothesis =>
        rw [along, inductionHypothesis]
        rfl
    rw [← listed state, gathered]
    exact along_flatMap perform (fun state call => (Simulator.flatMap_told state call.inner).2.1) ..
  · rw [gathered, gathered, along_map]
    exact along_flatMap perform (fun state call => (Simulator.flatMap_told state call.inner).2.2) ..

/-- Calls that have no part in something gather nothing of it. -/
theorem gathered_of_silent {β : Type}
    {part : Simulator (Board ω) × Board ω → Simulator.Call (Board ω) → List β}
    {calls : List (Call ω)} (silent : ∀ call ∈ calls, ∀ state, part state call.inner = [])
    (state : Simulator (Board ω) × Board ω) : gathered part calls state = [] := by
  induction calls generalizing state with
  | nil => rfl
  | cons call rest inductionHypothesis =>
    rw [gathered, along, silent call List.mem_cons_self, List.nil_append]
    apply inductionHypothesis
    intro later member
    exact silent later (List.mem_cons_of_mem call member)

/-- Raising the alerts of the start changes nothing about who listens, since it
goes through the registry without changing it. -/
theorem observers_startAlerts (alerts : List StartupAlert)
    (state : Simulator (Board ω) × Board ω) :
    (Simulator.run (alerts.map fun alert => .raiseAlert alert.name alert.message alert.severity)
      state).1.observers = state.1.observers := by
  induction alerts generalizing state with
  | nil => rfl
  | cons alert rest inductionHypothesis =>
    rw [List.map_cons, Simulator.run, List.foldl_cons]
    refine (inductionHypothesis _).trans ?_
    rw [Simulator.perform_raiseAlert]

/-- An application starts with its own listeners only, and in agreement: of the
events so far all are alerts of its configuration. -/
theorem agreeing_ofConfig {config : Config} {source : ρ} {guest : ω} {app : App ω ρ}
    (built : ofConfig config source guest = .ok app) :
    app.simulator.observers.entries = ownEntries config.pace.jsonSnapshots ∧
      ∃ events failed,
        Agreeing config.pace.jsonSnapshots events failed (fun _ => 0)
          (app.simulator, app.outside) ∧
        events.flatMap Event.moved = [] ∧
        events.flatMap Event.severities = config.alerts.map StartupAlert.severity ∧
        events.flatMap Event.snapshots = [] := by
  obtain ⟨simulator, registered, rfl⟩ := ofConfig_eq_ok_iff.mp built
  let start : Simulator (Board ω) × Board ω :=
    (attach config.pace.jsonSnapshots simulator, { guest := guest })
  have agreeing : Agreeing config.pace.jsonSnapshots [] [] (fun _ => 0) start :=
    agreeing_attach registered _ guest
  -- The alerts of the start are permitted calls like any later ones.
  let alerts : List (Call ω) := (startAlerts config).map .simulator
  have alertsOnly : ∀ call ∈ alerts, ∃ name message severity,
      call = .simulator (.raiseAlert name message severity) := by
    intro call member
    obtain ⟨inner, listed, rfl⟩ := List.mem_map.mp member
    obtain ⟨alert, _, rfl⟩ := List.mem_map.mp listed
    exact ⟨alert.name, alert.message, alert.severity, rfl⟩
  have permitted : ∀ call ∈ alerts, call.Permitted (ownEntries config.pace.jsonSnapshots) := by
    intro call member
    obtain ⟨name, message, severity, rfl⟩ := alertsOnly call member
    exact .raiseAlert name message severity
  have served : serve alerts start = Simulator.run (startAlerts config) start := List.foldl_map
  constructor
  · have observers := observers_startAlerts config.alerts start
    rw [observers_attach registered config.pace.jsonSnapshots { guest := guest }] at observers
    exact congrArg Registry.entries observers
  · obtain ⟨failed, reached⟩ := agreeing_serve agreeing permitted
    obtain ⟨moved, severities, snapshots⟩ := flatMap_told alerts start
    have young : ∀ name, gathered (Simulator.reportedWith name) alerts start = [] := by
      intro name
      refine gathered_of_silent (fun call member state => ?_) start
      obtain ⟨_, message, severity, rfl⟩ := alertsOnly call member
      exact ite_self []
    refine ⟨gathered Simulator.told alerts start, failed, ?_, ?_, ?_, ?_⟩
    · simp only [List.nil_append, young, served] at reached
      exact reached
    · rw [moved, gathered_of_silent, List.map_nil]
      intro call member state
      obtain ⟨name, message, severity, rfl⟩ := alertsOnly call member
      rfl
    · rw [severities, raised, List.flatMap_map, startAlerts, List.flatMap_map]
      exact (List.map_eq_flatMap ..).symm
    · rw [snapshots, gathered_of_silent, List.map_nil]
      intro call member state
      obtain ⟨name, message, severity, rfl⟩ := alertsOnly call member
      rfl

/-- Every failure is of one kind, so the counts by kind add up to the number of
failures. -/
theorem sum_count_kinds (failed : List EventKind) :
    (EventKind.all.map fun kind => failed.count kind).sum = failed.length := by
  induction failed with
  | nil => rfl
  | cons kind rest inductionHypothesis =>
    simp only [EventKind.all, List.map_cons, List.map_nil, List.sum_cons, List.sum_nil] at *
    cases kind <;> simp <;> omega

/-- The metrics of an application agree with its simulation at every point of a
run in which it is stepped, channels, derivations and rules are registered,
readings are overridden, alerts raised and cleared, and further listeners come,
fail and go. As long as the counts fit in a word:

- the ticks counted and timed are those of the store's clock;
- what a derivation has yielded and what was counted as undefined add up to the steps
  since it was registered;
- an active rule has been set off once more than cleared, any other as often;
- the gauges show the readings of the latest step;
- alerts are counted by severity, those of the start included;
- the failures counted by kind add up to those that the simulator counts.

Both sides agree when the application starts, and every permitted call keeps
them in agreement. Each item is then read off the agreement reached, where a
count that fits in a word is exact. -/
theorem counters_agree {config : Config} {source : ρ} {guest : ω} {app : App ω ρ}
    (built : ofConfig config source guest = .ok app) {calls : List (Call ω)}
    (permitted : ∀ call ∈ calls, call.Permitted app.simulator.observers.entries) :
    let start := (app.simulator, app.outside)
    let state := serve calls start
    let metrics := state.2.metrics
    (state.1.store.ticks < UInt64.size →
      (metrics.ticks.get []).toNat = state.1.store.ticks ∧
        (metrics.tickDuration.count []).toNat = state.1.store.ticks) ∧
    (∀ name previous, state.1.engine.previous name = .ok previous →
      let steps := (gathered (Simulator.reportedWith name) calls start).length
      steps < UInt64.size →
        (metrics.undefinedDerivations.get [("derivation", name)]).toNat +
          (previous.map Metric.samples).getD 0 = steps) ∧
    (∀ name active, state.1.engine.isActive name = .ok active →
      ((gathered Simulator.returned calls start).map Transition.label).count (name, .active) <
          UInt64.size →
        (metrics.thresholdTransitions.get [("rule", name), ("state", "active")]).toNat =
          (metrics.thresholdTransitions.get [("rule", name), ("state", "cleared")]).toNat +
            active.toNat) ∧
    (∀ report, (gathered Simulator.reported calls start).getLast? = some report →
      ∀ channel reading, report.snapshot.get? channel = some reading →
        metrics.channelValues.get? [("channel", channel)] = some reading) ∧
    (∀ severity,
      let alerts := (config.alerts.map StartupAlert.severity ++ raised calls).count severity
      alerts < UInt64.size →
        (metrics.alertsRaised.get [("severity", severity.name)]).toNat = alerts) ∧
    (state.1.listenerFailures < UInt64.size →
      (EventKind.all.map fun kind =>
        (metrics.listenerFailures.get [("kind", kind.name)]).toNat).sum =
          state.1.listenerFailures) := by
  intro start state metrics
  obtain ⟨entries, former, failedBefore, agreeing, unmoved, startSeverities, unread⟩ :=
    agreeing_ofConfig built
  rw [entries] at permitted
  obtain ⟨failedSince, reached⟩ := agreeing_serve agreeing permitted
  obtain ⟨moved, severities, snapshots⟩ := flatMap_told calls start
  have shown := reached.shown
  refine ⟨?_, ?_, ?_, ?_, ?_, ?_⟩
  · intro fits
    rw [shown.ticks, shown.durations]
    exact ⟨UInt64.toNat_ofNat_of_lt' fits, UInt64.toNat_ofNat_of_lt' fits⟩
  · intro name previous known steps fits
    obtain ⟨derivation, member, rfl, rfl⟩ := Engine.derivation_of_previous known
    have samples := reached.audited.sampled.samples derivation member
    rw [Nat.zero_add] at samples
    have undefinedFits := Nat.lt_of_le_of_lt (Nat.le.intro samples) fits
    have counted := shown.undefined.toNat_get undefinedFits
    rw [← counted] at samples
    exact samples
  · intro name active known fits
    obtain ⟨watch, member, rfl, rfl⟩ := Engine.watch_of_isActive known
    have flags := reached.audited.balanced.flags watch member
    have counted := shown.transitions
    rw [List.flatMap_append, unmoved, moved, List.nil_append] at flags counted
    have clearingsFit := Nat.lt_of_le_of_lt (Nat.le.intro flags.symm) fits
    have clearings := counted.toNat_get clearingsFit
    exact (counted.toNat_get fits).trans
      (flags.trans (congrArg (fun count => count + watch.active.toNat) clearings.symm))
  · intro report last channel reading read
    refine shown.readings report.snapshot ?_ channel reading read
    rw [List.flatMap_append, unread, snapshots, List.nil_append, List.getLast?_map, last]
    rfl
  · intro severity alerts fits
    have counted := shown.alerts
    rw [List.flatMap_append, startSeverities, severities] at counted
    exact counted.toNat_get fits
  · intro fits
    have each : ∀ kind, (metrics.listenerFailures.get [("kind", kind.name)]).toNat =
        (failedBefore ++ failedSince).count kind := by
      intro kind
      refine shown.failures.toNat_get (Nat.lt_of_le_of_lt List.count_le_length ?_)
      rw [reached.counted]
      exact fits
    simp only [each]
    rw [sum_count_kinds, reached.counted]

/-- A listener that crashes on every alert comes and goes, and an alert is
raised at the start and another one later: both are counted. -/
theorem counters_agree_oven :
    let oven : ChannelSpec := ⟨"oven", 20, 0, 300, 5⟩
    let hot : Rule := ⟨"hot", "oven", .above, 200, .warning, ""⟩
    let config : Config :=
      { version := 1, channels := [oven], rules := [hot], alerts := [⟨"door", "open", .info⟩] }
    let crash : Listener Event (Board Unit) := fun _ => pure (.crashed none)
    let calls : List (Call Unit) :=
      [.simulator (.subscribe .alert crash), .step (⟨1⟩ : Fixed) .zero,
        .simulator (.setValue "oven" 250), .simulator (.raiseAlert "door" "open" .info),
        .simulator (.unsubscribe ⟨.alert, 5⟩)]
    ∃ app : App Unit Fixed, ofConfig config ⟨1⟩ () = .ok app ∧
      (∀ call ∈ calls, call.Permitted app.simulator.observers.entries) ∧
      let metrics := (serve calls (app.simulator, app.outside)).2.metrics
      (metrics.alertsRaised.get [("severity", "info")]).toNat = 2 := by
  intro oven hot config crash calls
  let store : Store :=
    { channels := #[.ofSpec oven], index := ({} : Std.HashMap _ _).insert "oven" 0 }
  let engine : Engine := { watches := [⟨hot, false⟩] }
  have stored : Store.register {} oven = .ok store :=
    Store.register_eq_ok_iff.mpr
      ⟨ChannelSpec.check_eq_ok_iff.mpr (by decide), by simp [Store.contains], rfl⟩
  have accepted : Engine.registerRule {} hot = .ok engine :=
    Engine.registerRule_eq_ok_iff.mpr ⟨Rule.check_eq_ok_iff.mpr (by decide), by simp, rfl⟩
  have known : store.contains "oven" = true := by simp [store, Store.contains]
  have registered : register config =
      .ok ({ store := store, engine := engine } : Simulator (Board Unit)) := by
    simp [register, config, Simulator.registerChannel, stored, Simulator.registerRule, hot, known,
      accepted]
  obtain ⟨app, built⟩ : ∃ app : App Unit Fixed, ofConfig config ⟨1⟩ () = .ok app :=
    ⟨_, ofConfig_eq_ok_iff.mpr ⟨_, registered, rfl⟩⟩
  have foreign : ∀ entry ∈ (ownEntries false : List (Entry _ (Listener Event (Board Unit)))),
      ¬ Handle.names ⟨.alert, 5⟩ entry = true := List.any_eq_false.mp rfl
  have permitted : ∀ call ∈ calls, call.Permitted (ownEntries false) := by
    intro call member
    simp only [calls, List.mem_cons, List.not_mem_nil, or_false] at member
    rcases member with rfl | rfl | rfl | rfl | rfl
    · exact .subscribe _ fun _ _ => rfl
    · exact .step _ _
    · exact .setValue _ _
    · exact .raiseAlert _ _ _
    · exact .unsubscribe fun entry listed => Bool.not_eq_true _ ▸ foreign entry listed
  rw [show ownEntries false = app.simulator.observers.entries from
    (agreeing_ofConfig built).1.symm] at permitted
  exact ⟨app, built, permitted, (counters_agree built permitted).2.2.2.2.1 .info (by decide)⟩

end App

end Telemetry
