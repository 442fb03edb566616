import Mathlib.Data.List.Induction
import Telemetry.Proofs.EngineRuns

/-!
# A rule reports its edges, each once

Seen from one rule, a run of the engine is the sequence of snapshots that were
compared with the rules since the rule was registered. Calls that were refused
and calls that concern other things do not count. The transitions handed out for
the rule are exactly the edges of its condition along that sequence, which
starts inactive: one transition for each snapshot whose condition differs from
the one before, carrying that snapshot. So they alternate, and the flag is the
latest condition.

The induction is over the calls. It carries the flag that the rule has at each
point, since an edge is relative to the condition before it, and that no other
rule has the same name, since transitions are told apart by the names of their
rules.
-/
namespace Telemetry

/-- The changes in a sequence of conditions that starts with `former`. -/
def changes (former : Bool) (conditions : List Bool) : List (Bool × Bool) :=
  ((former :: conditions).zip conditions).filter fun pair => pair.1 != pair.2

namespace Rule

/-- The snapshots at which a rule's condition differs from the condition before,
the first being compared with `former`. -/
def turningPoints (rule : Rule) (former : Bool) (snapshots : List Snapshot) : List Snapshot :=
  ((former :: snapshots.map rule.metIn).zip snapshots).filterMap fun (before, snapshot) =>
    if before = rule.metIn snapshot then none else some snapshot

/-- The latest condition of a rule, or `former` if there is none. -/
def latest (rule : Rule) (former : Bool) (snapshots : List Snapshot) : Bool :=
  (snapshots.map rule.metIn).getLastD former

/-- The transitions that snapshots cause one after another in a rule whose flag
is `former` before the first. -/
def edges (rule : Rule) : Bool → List Snapshot → List Transition
  | _, [] => []
  | former, snapshot :: rest =>
    (Watch.transition? snapshot ⟨rule, former⟩).toList ++ edges rule (rule.metIn snapshot) rest

variable (rule : Rule)

/-- A snapshot that confirms the condition causes nothing, and the next one is
compared with the same flag. -/
theorem edges_cons_of_same {former : Bool} {snapshot : Snapshot} (rest : List Snapshot)
    (same : former = rule.metIn snapshot) :
    rule.edges former (snapshot :: rest) = rule.edges former rest := by
  simp [edges, Watch.transition?, ← same]

/-- A snapshot that changes the condition causes the transition it calls for.
There are two conditions only, so the flag becomes the opposite of what it
was. -/
theorem edges_cons_of_changed {former : Bool} {snapshot : Snapshot} (rest : List Snapshot)
    (changed : former ≠ rule.metIn snapshot) :
    rule.edges former (snapshot :: rest) =
      ⟨rule, .toward (!former), snapshot⟩ :: rule.edges (!former) rest := by
  have now : rule.metIn snapshot = !former := Bool.eq_not.mpr changed.symm
  simp [edges, Watch.transition?, now]

/-- The latest condition of a longer sequence is that of its second part, which
is empty or brings a condition of its own. -/
theorem latest_append (former : Bool) (first second : List Snapshot) :
    rule.latest former (first ++ second) = rule.latest (rule.latest former first) second := by
  cases second using List.reverseRecOn with
  | nil => rw [List.append_nil]; rfl
  | append_singleton front last =>
    simp only [latest, ← List.append_assoc, List.map_append, List.map_singleton,
      List.getLastD_concat]

/-- The edges of a longer sequence go on from the condition that the first part
ends with, since that is the flag which the second part finds. -/
theorem edges_append (former : Bool) (first second : List Snapshot) :
    rule.edges former (first ++ second) =
      rule.edges former first ++ rule.edges (rule.latest former first) second := by
  induction first generalizing former with
  | nil => rfl
  | cons snapshot rest inductionHypothesis =>
    simp only [List.cons_append, edges, inductionHypothesis, List.append_assoc, latest,
      List.map_cons, List.getLastD_cons]

/-- Each edge leads away from where the one before it led, so edges alternate.
Whether a position is even therefore tells its direction. -/
theorem edge_of_edges {former : Bool} {snapshots : List Snapshot} {position : Nat}
    {event : Transition} (listed : (rule.edges former snapshots)[position]? = some event) :
    event.edge = .toward (if position % 2 = 0 then !former else former) := by
  induction snapshots generalizing former position with
  | nil => simp [edges] at listed
  | cons snapshot rest inductionHypothesis =>
    by_cases same : former = rule.metIn snapshot
    · rw [edges_cons_of_same rule rest same] at listed
      exact inductionHypothesis listed
    · rw [edges_cons_of_changed rule rest same] at listed
      cases position with
      | zero =>
        cases listed
        rfl
      | succ earlier =>
        -- Behind the first edge both the parity and the condition are the other one.
        have next := inductionHypothesis listed
        rw [next]
        congr 1
        by_cases even : earlier % 2 = 0
        · have odd : ¬ (earlier + 1) % 2 = 0 := by omega
          simp [even, odd]
        · have even' : (earlier + 1) % 2 = 0 := by omega
          simp [even, even']

/-- Every edge is an edge of the rule itself, for a transition carries the rule
whose flag it turns. -/
theorem rule_of_edges {former : Bool} {snapshots : List Snapshot} {event : Transition}
    (listed : event ∈ rule.edges former snapshots) : event.rule = rule := by
  induction snapshots generalizing former with
  | nil => exact nomatch listed
  | cons snapshot rest inductionHypothesis =>
    by_cases same : former = rule.metIn snapshot
    · rw [edges_cons_of_same rule rest same] at listed
      exact inductionHypothesis listed
    · rw [edges_cons_of_changed rule rest same, List.mem_cons] at listed
      rcases listed with rfl | later
      · rfl
      · exact inductionHypothesis later

/-- There are as many edges as changes of the condition: both lists grow at the
same snapshots. -/
theorem length_edges (former : Bool) (snapshots : List Snapshot) :
    (rule.edges former snapshots).length = (changes former (snapshots.map rule.metIn)).length := by
  induction snapshots generalizing former with
  | nil => rfl
  | cons snapshot rest inductionHypothesis =>
    by_cases same : former = rule.metIn snapshot
    · rw [edges_cons_of_same rule rest same, inductionHypothesis]
      simp [changes, same]
    · rw [edges_cons_of_changed rule rest same, List.length_cons, inductionHypothesis]
      have now : rule.metIn snapshot = !former := Bool.eq_not.mpr (Ne.symm same)
      simp [changes, now]

/-- Each edge carries the snapshot at which the condition changed, and the
snapshots in between do not appear. -/
theorem snapshots_of_edges (former : Bool) (snapshots : List Snapshot) :
    (rule.edges former snapshots).map Transition.snapshot =
      rule.turningPoints former snapshots := by
  induction snapshots generalizing former with
  | nil => rfl
  | cons snapshot rest inductionHypothesis =>
    by_cases same : former = rule.metIn snapshot
    · rw [edges_cons_of_same rule rest same, inductionHypothesis]
      simp [turningPoints, same]
    · rw [edges_cons_of_changed rule rest same, List.map_cons, inductionHypothesis]
      have now : rule.metIn snapshot = !former := Bool.eq_not.mpr (Ne.symm same)
      simp [turningPoints, now]

end Rule

/-- The transitions of the rule of a name. -/
def eventsOf (name : String) (events : List Transition) : List Transition :=
  events.filter fun event => event.rule.name = name

/-- The transitions of one rule are picked from each part of a history on its
own. -/
theorem eventsOf_append (name : String) (former latter : List Transition) :
    eventsOf name (former ++ latter) = eventsOf name former ++ eventsOf name latter :=
  List.filter_append ..

/-- A transition that a snapshot causes carries the rule it was caused in. -/
theorem Watch.rule_of_transition? {snapshot : Snapshot} {watch : Watch} {event : Transition}
    (caused : watch.transition? snapshot = some event) : event.rule = watch.rule := by
  unfold Watch.transition? at caused
  split at caused
  · exact nomatch caused
  · cases caused
    rfl

/-- A snapshot causes no transition for a name that no rule has, since each
transition carries the name of a watched rule. -/
theorem eventsOf_absent {watches : List Watch} {name : String}
    (absent : ∀ watch ∈ watches, watch.rule.name ≠ name) (snapshot : Snapshot) :
    eventsOf name (watches.filterMap (Watch.transition? snapshot)) = [] := by
  rw [eventsOf, List.filter_eq_nil_iff]
  intro event listed
  obtain ⟨watch, member, caused⟩ := List.mem_filterMap.mp listed
  rw [Watch.rule_of_transition? caused]
  simpa using absent watch member

/-- Where names are distinct, a snapshot causes for a name what it causes in the
one rule that has it. -/
theorem eventsOf_present {watches : List Watch}
    (distinct : (watches.map fun watch => watch.rule.name).Nodup) {watch : Watch}
    (member : watch ∈ watches) (snapshot : Snapshot) :
    eventsOf watch.rule.name (watches.filterMap (Watch.transition? snapshot)) =
      (watch.transition? snapshot).toList := by
  induction watches with
  | nil => exact nomatch member
  | cons first rest inductionHypothesis =>
    obtain ⟨fresh, restDistinct⟩ := List.nodup_cons.mp distinct
    have split : (first :: rest).filterMap (Watch.transition? snapshot) =
        [first].filterMap (Watch.transition? snapshot) ++
          rest.filterMap (Watch.transition? snapshot) := by
      rw [← List.filterMap_append]
      rfl
    rw [split, eventsOf_append]
    rcases List.mem_cons.mp member with rfl | later
    · have absent : ∀ other ∈ rest, other.rule.name ≠ watch.rule.name := fun other within same =>
        fresh (List.mem_map.mpr ⟨other, within, same⟩)
      rw [eventsOf_absent absent, List.append_nil]
      cases caused : watch.transition? snapshot with
      | none => simp [eventsOf, caused]
      | some event => simp [eventsOf, caused, Watch.rule_of_transition? caused]
    · have other : first.rule.name ≠ watch.rule.name := fun same =>
        fresh (List.mem_map.mpr ⟨watch, later, same.symm⟩)
      rw [eventsOf_absent (by simpa using other), List.nil_append]
      exact inductionHypothesis restDistinct later

namespace Engine

/-- The transitions of one call go through the rules in the order of
registration, passing over those whose flag did not change. -/
theorem rules_of_emitted (engine : Engine) (call : Call) :
    ((engine.emitted call).map Transition.rule).Sublist engine.rules := by
  rcases watches_cases engine call with ⟨_, none, _⟩ | ⟨_, _, _, none, _⟩ |
    ⟨snapshot, _, _, caused, _⟩
  · rw [none]
    exact List.nil_sublist _
  · rw [none]
    exact List.nil_sublist _
  · rw [caused, rules]
    induction engine.watches with
    | nil => exact List.Sublist.refl _
    | cons watch rest inductionHypothesis =>
      rw [List.filterMap_cons]
      cases event : watch.transition? snapshot with
      | none => exact inductionHypothesis.cons _
      | some transition =>
        rw [List.map_cons, Watch.rule_of_transition? event]
        exact inductionHypothesis.cons_cons _

/-- No rule has two transitions in one call: the transitions are in the order of
the rules, and no name stands twice among those. -/
theorem emitted_nodup {engine : Engine} (distinct : Distinct engine) (call : Call) :
    ((engine.emitted call).map fun event => event.rule.name).Nodup := by
  have ordered := (rules_of_emitted engine call).map Rule.name
  rw [List.map_map, rules, List.map_map] at ordered
  exact ordered.nodup distinct

/-- What a run has shown of one rule whose flag was `active` at its start: the
transitions handed out for it, the flag it has come to, and that each snapshot
compared with it had a reading of its channel. -/
structure Followed (rule : Rule) (active : Bool) (events : List Transition)
    (snapshots : List Snapshot) (final : Engine) : Prop where
  edges : eventsOf rule.name events = rule.edges active snapshots
  flag : ⟨rule, rule.latest active snapshots⟩ ∈ final.watches
  present : ∀ snapshot ∈ snapshots, snapshot.contains rule.channel = true

/-- One call, seen from one rule. A call that compares no snapshot shows nothing
and leaves the flag; one that does shows the rule's edge and moves the flag. -/
theorem followed_perform {engine : Engine} (distinct : Distinct engine) {rule : Rule}
    {active : Bool} (member : ⟨rule, active⟩ ∈ engine.watches) (call : Call) :
    Followed rule active (engine.emitted call) (engine.evaluated call) (engine.perform call) := by
  rcases watches_cases engine call with ⟨same, none, unused⟩ | ⟨new, _, added, none, unused⟩ |
    ⟨snapshot, present, moved, caused, used⟩
  · rw [none, unused]
    exact ⟨rfl, same ▸ member, fun _ listed => nomatch listed⟩
  · rw [none, unused]
    exact ⟨rfl, added ▸ List.mem_append_left _ member, fun _ listed => nomatch listed⟩
  · rw [caused, used]
    refine ⟨?_, moved ▸ List.mem_map.mpr ⟨⟨rule, active⟩, member, rfl⟩, ?_⟩
    · rw [eventsOf_present distinct member]
      simp [Rule.edges]
    · intro other listed
      rw [List.mem_singleton.mp listed]
      exact missingRuleChannel?_eq_none_iff.mp present _ member

/-- A run, seen from one rule. What the first call shows and what the others
show from the flag it has left are put together, as edges are. -/
theorem followed_run {engine : Engine} (distinct : Distinct engine) {rule : Rule} {active : Bool}
    (member : ⟨rule, active⟩ ∈ engine.watches) (calls : List Call) :
    Followed rule active (along perform emitted calls engine) (along perform evaluated calls engine)
      (run calls engine) := by
  induction calls generalizing engine active with
  | nil => exact ⟨rfl, member, fun _ listed => nomatch listed⟩
  | cons call rest inductionHypothesis =>
    have first := followed_perform distinct member call
    have later := inductionHypothesis (distinct_perform distinct call) first.flag
    refine ⟨?_, ?_, ?_⟩
    · rw [along, along, eventsOf_append, first.edges, later.edges, Rule.edges_append]
    · rw [along, Rule.latest_append]
      exact later.flag
    · intro snapshot listed
      rcases List.mem_append.mp listed with here | there
      · exact first.present snapshot here
      · exact later.present snapshot there

/-- From its registration on, and whatever calls follow, a rule reports exactly
the edges of its condition: its transitions alternate and begin with an
activation, there is one for each change of the condition, each carries the
snapshot at which the change happened, and the flag is the latest condition. The
condition is taken at the snapshots that were compared successfully, each of
which has a reading of the rule's channel. The transitions of any one call
follow the order of registration, at most one for each rule.

The rule is followed from where it was registered, call by call. All but the
last conclusion is then about the edges of one sequence of conditions. -/
theorem edge_triggered {before after : List Call} {rule : Rule} {registered : Engine}
    (accepted : (run before {}).registerRule rule = .ok registered) :
    let events := eventsOf rule.name (along perform emitted after registered)
    let snapshots := along perform evaluated after registered
    (∀ position event, events[position]? = some event →
        event.rule = rule ∧ event.edge = if position % 2 = 0 then .active else .cleared) ∧
      events.length = (changes false (snapshots.map rule.metIn)).length ∧
      events.map Transition.snapshot = rule.turningPoints false snapshots ∧
      (run after registered).isActive rule.name = .ok (rule.latest false snapshots) ∧
      (∀ snapshot ∈ snapshots, ∃ reading, snapshot.get? rule.channel = some reading ∧
        rule.metIn snapshot = rule.isMet reading) ∧
      ∀ calls call, let engine := run calls {}
        ((engine.emitted call).map Transition.rule).Sublist engine.rules ∧
          ((engine.emitted call).map fun event => event.rule.name).Nodup := by
  intro events snapshots
  have initial : Distinct {} := List.nodup_nil
  have distinct : Distinct registered := by
    have step := distinct_perform (distinct_run initial before) (.registerRule rule)
    rwa [perform, accepted, standing_ok] at step
  have member : ⟨rule, false⟩ ∈ registered.watches := by
    obtain ⟨_, _, rfl⟩ := registerRule_eq_ok_iff.mp accepted
    exact List.mem_append_right _ List.mem_cons_self
  have followed := followed_run distinct member after
  have same : events = rule.edges false snapshots := followed.edges
  refine ⟨?_, ?_, ?_, isActive_of_mem (distinct_run distinct after) followed.flag, ?_, ?_⟩
  · intro position event listed
    rw [same] at listed
    refine ⟨rule.rule_of_edges (List.mem_of_getElem? listed), ?_⟩
    rw [rule.edge_of_edges listed]
    by_cases even : position % 2 = 0 <;> simp [even, Edge.toward]
  · rw [same, rule.length_edges]
  · rw [same, rule.snapshots_of_edges]
  · intro snapshot listed
    obtain ⟨reading, read⟩ := Option.isSome_iff_exists.mp (followed.present snapshot listed)
    exact ⟨reading, read, by rw [Rule.metIn, read, Option.any_some]⟩
  · intro calls call engine
    exact ⟨rules_of_emitted engine call, emitted_nodup (distinct_run initial calls) call⟩

/-- A rule above a limit that is crossed, kept and left again. A snapshot
without a reading of its channel is refused in between and does not count, and
the two changes are reported with the snapshots at which they happened. -/
theorem edge_triggered_crossing :
    let rule : Rule := ⟨"hot", "oven", .above, 200, .warning, ""⟩
    let breach : Snapshot := .ofPairs 1 [("oven", 250)]
    let calm : Snapshot := .ofPairs 2 [("oven", 20)]
    let calls := [.watch breach, .watch breach, .watch (.empty 3), .watch calm]
    let registered : Engine := { watches := [⟨rule, false⟩] }
    (run [] {}).registerRule rule = .ok registered ∧
      along perform evaluated calls registered = [breach, breach, calm] ∧
      (eventsOf "hot" (along perform emitted calls registered)).map Transition.snapshot =
        [breach, calm] ∧
      (eventsOf "hot" (along perform emitted calls registered)).map Transition.edge =
        [.active, .cleared] ∧
      (run calls registered).isActive "hot" = .ok false := by
  intro rule breach calm calls registered
  have checked : rule.check = .ok () :=
    Rule.check_eq_ok_iff.mpr ⟨by decide, by decide, by decide⟩
  have accepted : (run [] {}).registerRule rule = .ok registered :=
    registerRule_eq_ok_iff.mpr ⟨checked, by simp [run], rfl⟩
  have present : breach.contains rule.channel = true ∧ calm.contains rule.channel = true ∧
      (Snapshot.empty 3).contains rule.channel = false := by decide +kernel
  have compared : along perform evaluated calls registered = [breach, breach, calm] := by
    simp [calls, registered, along, evaluated, perform, watch_eq, missingRuleChannel?,
      Watch.observe, present, Except.map]
  have high : rule.metIn breach = true := by decide +kernel
  have low : rule.metIn calm = false := by decide +kernel
  obtain ⟨_, _, snapshots, active, _, _⟩ := @edge_triggered [] calls rule registered accepted
  rw [compared] at snapshots active
  refine ⟨accepted, compared, ?_, by decide +kernel, ?_⟩
  · simpa [Rule.turningPoints, high, low] using snapshots
  · simpa [Rule.latest, high, low] using active

end Engine

end Telemetry
