import Telemetry.Proofs.SimulatorRuns

/-!
# Flags describe the current readings

Readings are kept by the store and flags by the engine. A step and an override
move readings and then every flag with them; nothing else moves a reading, since
a new channel leaves the others alone, and nothing else moves a flag, unless the
engine itself is handed some other snapshot.

The rules that the latest step or override found registered are therefore
flagged as the current readings have it. A rule registered since then is not
flagged at all, whether or not its condition holds by now, and whether or not
its channel exists.
-/
namespace Telemetry

/-- A new channel leaves the readings of the others, as it has a name that none
of them has. -/
theorem Store.get?_snapshot_register {store after : Store} {spec : ChannelSpec}
    (indexed : store.Indexed) (registered : store.register spec = .ok after) {name : String}
    (known : name ∈ store.names) : after.snapshot.get? name = store.snapshot.get? name := by
  have extended := indexed_register indexed registered
  rw [get?_snapshot extended, get?_snapshot indexed]
  obtain ⟨channel, within, same⟩ := List.mem_map.mp known
  have former := (channel?_eq_some_iff indexed name channel).mpr ⟨within, same⟩
  have still : channel ∈ after.channels.toList := by
    obtain ⟨_, _, rfl⟩ := register_eq_ok_iff.mp registered
    rw [Array.toList_push]
    exact List.mem_append_left _ within
  have latter := (channel?_eq_some_iff extended name channel).mpr ⟨still, same⟩
  rw [former, latter]

/-- A registered channel has a reading, and the store and a snapshot of it agree
on which. -/
theorem Store.value_of_mem_names {store : Store} (indexed : store.Indexed) {name : String}
    (known : name ∈ store.names) :
    ∃ reading, store.value name = .ok reading ∧ store.snapshot.get? name = some reading := by
  obtain ⟨channel, within, same⟩ := List.mem_map.mp known
  have held := (channel?_eq_some_iff indexed name channel).mpr ⟨within, same⟩
  refine ⟨channel.value, ?_, ?_⟩
  · simp [value, Store.channel, held, Except.map]
  · rw [get?_snapshot indexed, held, Option.map_some]

/-- An engine call that has compared the rules with a snapshot was asked to, for
no other call compares them. -/
theorem Engine.eq_watch_of_evaluated {engine : Engine} {call : Call} {snapshot : Snapshot}
    (compared : engine.evaluated call = [snapshot]) : ∃ asked, call = .watch asked := by
  cases call with
  | watch asked => exact ⟨asked, rfl⟩
  | registerDerivation _ _ _ | registerRule _ | recompute _ | resetDerivation _ =>
    exact nomatch compared

namespace Simulator

variable {σ : Type}

/-- The rules that the latest step or override of a run found registered; before
the first one, those given. -/
def judged : List (Call σ) → Simulator σ × σ → List Rule → List Rule
  | [], _, latest => latest
  | call :: rest, state, latest =>
    judged rest (perform state call)
      (if settles state call then state.1.engine.rules else latest)

/-- The flags of the rules given describe the current readings, of which there
is one for each; the rules after them have no flag set. -/
structure Flagged (rules : List Rule) (simulator : Simulator σ) : Prop where
  known : ∀ rule ∈ rules, rule.channel ∈ simulator.store.names
  flags : ∃ later : List Rule, simulator.engine.watches =
    rules.map (fun rule => ⟨rule, rule.metIn simulator.snapshot⟩) ++
      later.map fun rule => ⟨rule, false⟩

/-- Where neither readings nor flags have changed, the flags still describe the
readings. -/
theorem Flagged.of_same {rules : List Rule} {former after : Simulator σ}
    (flagged : Flagged rules former) (store : after.store = former.store)
    (watches : after.engine.watches = former.engine.watches) : Flagged rules after := by
  constructor
  · rw [store]
    exact flagged.known
  · rw [watches, snapshot, store]
    exact flagged.flags

/-- A new channel is read by none of the rules given, all of which read channels
that were there before. -/
theorem Flagged.of_register {rules : List Rule} {former after : Simulator σ} {spec : ChannelSpec}
    (flagged : Flagged rules former) (indexed : former.store.Indexed)
    (registered : former.store.register spec = .ok after.store)
    (engine : after.engine = former.engine) : Flagged rules after := by
  constructor
  · intro rule member
    rw [Store.names_register registered]
    exact List.mem_append_left _ (flagged.known rule member)
  · obtain ⟨later, flags⟩ := flagged.flags
    refine ⟨later, ?_⟩
    -- The new name is none of those that the rules read, or it would be registered already.
    have kept : ∀ rule ∈ rules, rule.metIn after.snapshot = rule.metIn former.snapshot := by
      intro rule member
      rw [Rule.metIn, Rule.metIn, snapshot, snapshot,
        Store.get?_snapshot_register indexed registered (flagged.known rule member)]
    rw [engine, flags, List.append_cancel_right_eq]
    exact List.map_congr_left fun rule member => by rw [kept rule member]

/-- A call on the engine can add a rule, which starts with its flag not set. It
is among those that came later, and nothing is claimed of its condition. -/
theorem Flagged.of_engine {rules : List Rule} {former after : Simulator σ} {made : Engine.Call}
    (flagged : Flagged rules former) (store : after.store = former.store)
    (engine : after.engine = former.engine.perform made)
    (indirect : ∀ snapshot, made ≠ .watch snapshot) : Flagged rules after := by
  rcases Engine.watches_cases former.engine made with ⟨same, _⟩ | ⟨rule, _, added, _⟩ |
    ⟨_, _, _, _, compared⟩
  · exact flagged.of_same store (by rw [engine, same])
  · constructor
    · rw [store]
      exact flagged.known
    · obtain ⟨later, flags⟩ := flagged.flags
      have readings : after.snapshot = former.snapshot := congrArg Store.snapshot store
      refine ⟨later ++ [rule], ?_⟩
      rw [engine, added, flags, readings, List.map_append, List.append_assoc]
      rfl
  · obtain ⟨asked, watched⟩ := Engine.eq_watch_of_evaluated compared
    exact absurd watched (indirect asked)

/-- New readings that every rule was compared with are described by every flag.
The check before has made sure that each rule's channel has a reading. -/
theorem flagged_of_watched {former after : Simulator σ} (indexed : former.store.Indexed)
    (names : after.store.names = former.store.names) (checked : former.checkInputs = .ok ())
    (watches : after.engine.watches =
      former.engine.watches.map (Watch.observe after.snapshot)) :
    Flagged former.engine.rules after := by
  constructor
  · intro rule member
    obtain ⟨watch, within, rfl⟩ := List.mem_map.mp member
    have present := (Engine.checkInputs_eq_ok_iff.mp checked).2
    rw [names, ← Store.contains_iff indexed]
    exact Engine.missingRuleChannel?_eq_none_iff.mp present watch within
  · refine ⟨[], ?_⟩
    rw [watches, Engine.rules, List.map_map, List.map_nil, List.append_nil]
    rfl

/-- One call keeps the flags describing the readings. A step or an override
makes it true of all rules that it finds, and any other call leaves it true of
those it was true of. -/
theorem flagged_perform {state : Simulator σ × σ} {rules : List Rule}
    (reachable : state.1.store.Reachable) (flagged : Flagged rules state.1) {call : Call σ}
    (indirect : ∀ snapshot, call ≠ .engine (.watch snapshot)) :
    Flagged (if settles state call then state.1.engine.rules else rules)
      (perform state call).1 := by
  have indexed := reachable.indexed
  cases effect_perform indexed call with
  | idle store engine raised unsettled =>
    rw [if_neg (by simp [unsettled])]
    exact flagged.of_same store (by rw [engine])
  | channel spec registered engine alerts unsettled =>
    rw [if_neg (by simp [unsettled])]
    exact flagged.of_register indexed registered engine
  | engine made store engine direct alerts unsettled =>
    rw [if_neg (by simp [unsettled])]
    exact flagged.of_engine store engine fun snapshot watched =>
      indirect snapshot (direct snapshot watched)
  | settled made store names checked watches alerts settled =>
    rw [if_pos settled]
    exact flagged_of_watched indexed names checked watches

/-- All that a run maintains, with the rules it has judged. -/
structure Described (rules : List Rule) (simulator : Simulator σ) : Prop where
  reachable : simulator.store.Reachable
  distinct : simulator.engine.Distinct
  raised : ∀ alert ∈ simulator.alerts, alert.raisedAt.isSome = true
  flagged : Flagged rules simulator

/-- One call maintains all of it, whether or not it settles anything. -/
theorem described_perform {state : Simulator σ × σ} {rules : List Rule}
    (described : Described rules state.1) {call : Call σ}
    (indirect : ∀ snapshot, call ≠ .engine (.watch snapshot)) :
    Described (if settles state call then state.1.engine.rules else rules)
      (perform state call).1 where
  reachable := reachable_perform described.reachable call
  distinct := distinct_perform described.reachable described.distinct call
  raised := raised_perform described.reachable described.raised call
  flagged := flagged_perform described.reachable described.flagged indirect

/-- So does a run, and the rules that it speaks of are those that its latest
step or override has judged. -/
theorem described_run {state : Simulator σ × σ} {rules : List Rule}
    (described : Described rules state.1) {calls : List (Call σ)}
    (indirect : ∀ snapshot, .engine (.watch snapshot) ∉ calls) :
    Described (judged calls state rules) (run calls state).1 := by
  induction calls generalizing state rules with
  | nil => exact described
  | cons call rest inductionHypothesis =>
    refine inductionHypothesis (described_perform described ?_) ?_
    · rintro snapshot rfl
      exact indirect snapshot List.mem_cons_self
    · intro snapshot member
      exact indirect snapshot (List.mem_cons_of_mem call member)

/-- A new simulator has no rules, and so all of it holds of none. -/
theorem described_fresh : Described [] ({} : Simulator σ) where
  reachable := ⟨[], rfl⟩
  distinct := List.nodup_nil
  raised := nofun
  flagged := ⟨nofun, [], rfl⟩

/-- The active rules are those given whose condition holds of the current
readings. The rules behind them have no flag set, whatever their conditions. -/
theorem Flagged.activeRules {rules : List Rule} {simulator : Simulator σ}
    (flagged : Flagged rules simulator) :
    simulator.engine.activeRules = rules.filter fun rule => rule.metIn simulator.snapshot := by
  obtain ⟨later, flags⟩ := flagged.flags
  rw [Engine.activeRules, flags]
  simp [List.filter_map, Function.comp_def]

/-- Among the active alerts, those without a tick are the ones that rules stand
for, since each alert raised by hand knows its tick. -/
theorem activeAlerts_of_raised {simulator : Simulator σ}
    (raised : ∀ alert ∈ simulator.alerts, alert.raisedAt.isSome = true) :
    (simulator.activeAlerts.filter fun alert => alert.raisedAt.isNone) =
      simulator.engine.activeRules.map Alert.ofRule := by
  have byHand : (simulator.alerts.filter fun alert => alert.raisedAt.isNone) = [] := by
    rw [List.filter_eq_nil_iff]
    intro alert member
    simp [Option.isSome_iff_ne_none.mp (raised alert member)]
  rw [activeAlerts, List.filter_append, byHand, List.nil_append, List.filter_eq_self]
  intro alert member
  obtain ⟨rule, _, rfl⟩ := List.mem_map.mp member
  rfl

/-- A run in which the engine is handed no snapshot of its own: the rules that
the latest step or override found registered are active exactly when their
condition holds of the reading that the store holds now, and the rules
registered since are inactive. The alerts that stand for rules are those of the
former whose condition holds, in the order of registration.

The run keeps the rules in two parts, those that the latest step or override has
judged and those behind them, and each part says what its flags are. -/
theorem flags_describe_readings {calls : List (Call σ)}
    (indirect : ∀ snapshot, .engine (.watch snapshot) ∉ calls) (outside : σ) :
    let simulator := (run calls ({}, outside)).1
    let earlier := judged calls ({}, outside) []
    ∃ later, simulator.engine.rules = earlier ++ later ∧
      (∀ rule ∈ earlier, ∃ reading, simulator.store.value rule.channel = .ok reading ∧
        simulator.engine.isActive rule.name = .ok (rule.isMet reading)) ∧
      (∀ rule ∈ later, simulator.engine.isActive rule.name = .ok false) ∧
      (simulator.activeAlerts.filter fun alert => alert.raisedAt.isNone) =
        (earlier.filter fun rule => rule.metIn simulator.snapshot).map Alert.ofRule := by
  intro simulator earlier
  have described : Described earlier simulator := described_run described_fresh indirect
  obtain ⟨later, flags⟩ := described.flagged.flags
  refine ⟨later, ?_, ?_, ?_, ?_⟩
  · rw [Engine.rules, flags]
    simp [Function.comp_def]
  · intro rule member
    have known := described.flagged.known rule member
    obtain ⟨reading, held, read⟩ := Store.value_of_mem_names described.reachable.indexed known
    have watched : ⟨rule, rule.metIn simulator.snapshot⟩ ∈ simulator.engine.watches := by
      rw [flags]
      exact List.mem_append_left _ (List.mem_map_of_mem member)
    refine ⟨reading, held, ?_⟩
    rw [Engine.isActive_of_mem described.distinct watched, Rule.metIn, snapshot, read,
      Option.any_some]
  · intro rule member
    have watched : ⟨rule, false⟩ ∈ simulator.engine.watches := by
      rw [flags]
      exact List.mem_append_right _ (List.mem_map_of_mem member)
    exact Engine.isActive_of_mem described.distinct watched
  · rw [activeAlerts_of_raised described.raised, described.flagged.activeRules]

/-- A rule judged by an override, and one registered after it whose condition
holds already. -/
theorem flags_describe_readings_oven :
    let oven : ChannelSpec := ⟨"oven", 20, 0, 300, 5⟩
    let hot : Rule := ⟨"hot", "oven", .above, 200, .warning, ""⟩
    let warm : Rule := ⟨"warm", "oven", .above, 100, .info, ""⟩
    let calls : List (Call Unit) :=
      [.registerChannel oven, .registerRule hot, .setValue "oven" 250, .registerRule warm]
    let simulator := (run calls ({}, ())).1
    (∀ snapshot, .engine (.watch snapshot) ∉ calls) ∧ judged calls ({}, ()) [] = [hot] ∧
      ∃ later, simulator.engine.rules = hot :: later ∧
        (∃ reading, simulator.store.value "oven" = .ok reading ∧
          simulator.engine.isActive "hot" = .ok (hot.isMet reading)) ∧
        ∀ rule ∈ later, simulator.engine.isActive rule.name = .ok false := by
  intro oven hot warm calls simulator
  have indirect : ∀ snapshot, .engine (.watch snapshot) ∉ calls := by simp [calls]
  let store : Store :=
    { channels := #[.ofSpec oven], index := ({} : Std.HashMap _ _).insert "oven" 0 }
  let engine : Engine := { watches := [⟨hot, false⟩] }
  have registered : Store.register {} oven = .ok store :=
    Store.register_eq_ok_iff.mpr
      ⟨ChannelSpec.check_eq_ok_iff.mpr (by decide), by simp [Store.contains], rfl⟩
  have accepted : Engine.registerRule {} hot = .ok engine :=
    Engine.registerRule_eq_ok_iff.mpr ⟨Rule.check_eq_ok_iff.mpr (by decide), by simp, rfl⟩
  have known : store.contains "oven" = true := by simp [store, Store.contains]
  have checked : engine.checkInputs store.contains = .ok () :=
    Engine.checkInputs_eq_ok_iff.mpr
      ⟨rfl, by simp [Engine.missingRuleChannel?, engine, hot, known]⟩
  have indexed : store.Indexed := Store.indexed_register Store.indexed_empty registered
  have found : store.index["oven"]? = some 0 := by simp [store]
  have written := Store.setValue_eq_ok_iff.mpr
    ⟨(by decide : Float.isFinite 250 = true), 0, .ofSpec oven, found, rfl, rfl, rfl⟩
  let before : Simulator Unit := { store := store, engine := engine }
  have prepared :
      perform (perform ({}, ()) (.registerChannel oven)) (.registerRule hot) = (before, ()) := by
    simp [perform, registerChannel, registered, standing_registerRule, hot, known,
      Engine.perform, accepted, before]
  have settled : settles (before, ()) (.setValue "oven" 250) = true := by
    simp [settles, Session.setValue_on, before, indexed, checkInputs, checked, written]
  have latest : judged calls ({}, ()) [] = [hot] := by
    simp only [calls, judged, prepared, settled]
    rfl
  obtain ⟨later, rules, earlier, since, _⟩ := flags_describe_readings indirect ()
  rw [latest] at rules earlier
  exact ⟨indirect, latest, later, rules, earlier hot List.mem_cons_self, since⟩

end Simulator

end Telemetry
