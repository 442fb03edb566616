import Telemetry.Proofs.EngineAudits

/-!
# The alerts that are left of a history

Alerts raised by hand come and go by two calls only. The history of a run lists
what these calls have done: an alert that was raised, with the tick at which
that was, and a name that was cleared, unless the call was refused. An alert is
left if no later entry clears its name.

The simulator keeps no history but the alerts that are left, in the order of
raising and with repetitions. Rules that are active appear behind them, under
names of their own; clearing looks at neither their names nor their state.
-/
namespace Telemetry

/-- What happens to the alerts that are raised by hand. -/
inductive AlertChange where
  | raised (alert : Alert)
  | cleared (name : String)

namespace AlertChange

/-- Whether a change removes the alerts of this name. -/
def clears (name : String) : AlertChange → Bool
  | raised _ => false
  | cleared gone => gone = name

/-- The alerts of a history that no later change has removed. -/
def remaining : List AlertChange → List Alert
  | [] => []
  | raised alert :: later =>
    if later.any (clears alert.name) then remaining later else alert :: remaining later
  | cleared _ :: later => remaining later

/-- What a change makes of alerts. -/
def amend (alerts : List Alert) : AlertChange → List Alert
  | raised alert => alerts ++ [alert]
  | cleared name => alerts.filter fun alert => alert.name ≠ name

/-- An alert raised last is left, and removes none of those before it. -/
theorem remaining_raised (history : List AlertChange) (alert : Alert) :
    remaining (history ++ [raised alert]) = remaining history ++ [alert] := by
  induction history with
  | nil => rfl
  | cons change later inductionHypothesis =>
    cases change with
    | cleared name => exact inductionHypothesis
    | raised earlier =>
      have silent : (later ++ [raised alert]).any (clears earlier.name) =
          later.any (clears earlier.name) := by
        simp [clears]
      rw [List.cons_append, remaining, remaining, silent, inductionHypothesis]
      split <;> rfl

/-- A name cleared last removes every alert of this name from those that were
left, however often it was raised. -/
theorem remaining_cleared (history : List AlertChange) (name : String) :
    remaining (history ++ [cleared name]) =
      (remaining history).filter fun alert => alert.name ≠ name := by
  induction history with
  | nil => rfl
  | cons change later inductionHypothesis =>
    cases change with
    | cleared other => exact inductionHypothesis
    | raised earlier =>
      have removed : (later ++ [cleared name]).any (clears earlier.name) =
          (later.any (clears earlier.name) || decide (name = earlier.name)) := by
        simp [clears]
      rw [List.cons_append, remaining, remaining, removed, inductionHypothesis]
      cases later.any (clears earlier.name) with
      | true => rfl
      | false =>
        by_cases same : name = earlier.name
        · simp [same]
        · simp [same, eq_comm]

/-- What later changes remove is removed one change after another. The
definition looks from each alert to what comes later; this is the view of
somebody who keeps what is left. -/
theorem remaining_append (history changes : List AlertChange) :
    remaining (history ++ changes) = changes.foldl amend (remaining history) := by
  induction changes generalizing history with
  | nil => rw [List.append_nil, List.foldl_nil]
  | cons change later inductionHypothesis =>
    have first : remaining (history ++ [change]) = amend (remaining history) change := by
      cases change with
      | raised alert => exact remaining_raised history alert
      | cleared name => exact remaining_cleared history name
    rw [List.foldl_cons, ← first, ← inductionHypothesis, List.append_assoc, List.singleton_append]

end AlertChange

namespace Simulator

open AlertChange (amend remaining remaining_append)

variable {σ : Type}

/-- What a call does to the alerts that are raised by hand. -/
def alertChanges (state : Simulator σ × σ) : Call σ → List AlertChange
  | .raiseAlert name message severity =>
    [.raised ⟨name, message, severity, some state.1.store.ticks⟩]
  | .clearAlert name => if (state.1.clearAlert name).isOk then [.cleared name] else []
  | _ => []

/-- A name can be cleared exactly when some alert raised by hand has it. All
alerts of the name are removed then, and the others keep their order. -/
theorem clearAlert_of_mem {simulator : Simulator σ} {name : String}
    (present : ∃ alert ∈ simulator.alerts, alert.name = name) :
    simulator.clearAlert name =
      .ok { simulator with alerts := simulator.alerts.filter fun alert => alert.name ≠ name } :=
  if_pos (by simpa using present)

/-- Where no alert raised by hand has the name, clearing it is refused, also if
a rule of that name is active. -/
theorem clearAlert_of_not_mem {simulator : Simulator σ} {name : String}
    (absent : ¬∃ alert ∈ simulator.alerts, alert.name = name) :
    simulator.clearAlert name = .error (.notRegistered .alert name) :=
  if_neg (by simpa using absent)

/-- No other call touches the alerts that are raised by hand: steps and
overrides move the flags of rules, and these are kept elsewhere. -/
theorem alerts_perform {state : Simulator σ × σ} (indexed : state.1.store.Indexed)
    (call : Call σ) :
    (perform state call).1.alerts = (alertChanges state call).foldl amend state.1.alerts := by
  cases call with
  | registerChannel spec =>
    cases outcome : state.1.store.register spec <;>
      simp [perform, registerChannel, outcome, alertChanges]
  | registerDerivation name dependsOn compute =>
    rw [perform, standing_registerDerivation]
    split <;> rfl
  | registerRule rule =>
    rw [perform, standing_registerRule]
    split <;> rfl
  | step source =>
    cases checked : state.1.checkInputs with
    | error fault => rw [(step_of_unchecked indexed checked source).1]; rfl
    | ok => rw [(step_of_checked indexed checked source).1]; rfl
  | setValue name value =>
    rcases setValue_cases indexed name value with ⟨done, _⟩ | ⟨_, _, _, _, done, _⟩
    · rw [done]; rfl
    · rw [done]; rfl
  | raiseAlert name message severity => rw [perform_raiseAlert]; rfl
  | clearAlert name =>
    by_cases present : ∃ alert ∈ state.1.alerts, alert.name = name
    · rw [perform, alertChanges, clearAlert_of_mem present]
      rfl
    · rw [perform, alertChanges, clearAlert_of_not_mem present]
      rfl
  | engine _ | subscribe _ _ | unsubscribe _ | setHook _ | notify _ _ => rfl

/-- The alerts that a simulator keeps are those that are left of the history, by
induction over the calls, the last one first. -/
theorem alerts_run (calls : List (Call σ)) (outside : σ) :
    (run calls ({}, outside)).1.alerts =
      remaining (along perform alertChanges calls ({}, outside)) := by
  induction calls using List.reverseRecOn with
  | nil => rfl
  | append_singleton earlier call inductionHypothesis =>
    have indexed := (reachable_start earlier outside).indexed
    rw [along_append, remaining_append, ← inductionHypothesis, along, along, List.append_nil,
      ← run, ← alerts_perform indexed, run, run, List.foldl_append]
    rfl

section Ticks

/-- The alerts know their ticks, which do not decrease and are not past this
one. -/
def Dated (alerts : List Alert) (now : Nat) : Prop :=
  ∃ ticks : List Nat, alerts.map Alert.raisedAt = ticks.map some ∧
    ticks.Pairwise (· ≤ ·) ∧ ∀ tick ∈ ticks, tick ≤ now

/-- Time may pass without making dates wrong. -/
theorem Dated.later {alerts : List Alert} {now later : Nat} (dated : Dated alerts now)
    (passed : now ≤ later) : Dated alerts later := by
  obtain ⟨ticks, known, ordered, past⟩ := dated
  exact ⟨ticks, known, ordered, fun tick member => Nat.le_trans (past tick member) passed⟩

/-- An alert raised now keeps the dates in order, since none before it is past
the present tick. -/
theorem Dated.raise {alerts : List Alert} {now : Nat} (dated : Dated alerts now)
    (name message : String) (severity : Severity) :
    Dated (alerts ++ [⟨name, message, severity, some now⟩]) now := by
  obtain ⟨ticks, known, ordered, past⟩ := dated
  refine ⟨ticks ++ [now], by simp [known], ?_, ?_⟩
  · rw [List.pairwise_append]
    exact ⟨ordered, List.pairwise_singleton _ _, fun tick member latest only =>
      List.mem_singleton.mp only ▸ past tick member⟩
  · intro tick member
    rcases List.mem_append.mp member with former | latest
    · exact past tick former
    · exact Nat.le_of_eq (List.mem_singleton.mp latest)

/-- Removing alerts leaves the others in order, because part of an increasing
list is increasing. -/
theorem Dated.filter {alerts : List Alert} {now : Nat} (dated : Dated alerts now)
    (keep : Alert → Bool) : Dated (alerts.filter keep) now := by
  obtain ⟨ticks, known, ordered, past⟩ := dated
  have fewer : List.Sublist ((alerts.filter keep).map Alert.raisedAt) (ticks.map some) := by
    rw [← known]
    exact List.filter_sublist.map _
  obtain ⟨left, sublist, same⟩ := List.sublist_map_iff.mp fewer
  exact ⟨left, same, ordered.sublist sublist, fun tick member => past tick (sublist.subset member)⟩

/-- A call keeps the alerts dated. Whatever it does to them it does at the
present tick, and then the clock may go on. -/
theorem dated_perform {state : Simulator σ × σ} (indexed : state.1.store.Indexed)
    (dated : Dated state.1.alerts state.1.store.ticks) (call : Call σ) :
    Dated (perform state call).1.alerts (perform state call).1.store.ticks := by
  rw [alerts_perform indexed, ticks_perform indexed]
  apply Dated.later _ (Nat.le_add_right _ _)
  cases call with
  | raiseAlert name message severity => exact dated.raise name message severity
  | clearAlert name =>
    rw [alertChanges]
    split
    · exact dated.filter _
    · exact dated
  | _ => exact dated

/-- The alerts are dated after any run from a new simulator. -/
theorem dated_run (calls : List (Call σ)) (outside : σ) :
    let simulator := (run calls ({}, outside)).1
    Dated simulator.alerts simulator.store.ticks := by
  induction calls using List.reverseRecOn with
  | nil => exact ⟨[], rfl, .nil, List.forall_mem_nil _⟩
  | append_singleton earlier call inductionHypothesis =>
    have indexed := (reachable_start earlier outside).indexed
    rw [run, List.foldl_append]
    exact dated_perform indexed inductionHypothesis call

/-- Alerts that are dated know their ticks, every one of them. -/
theorem Dated.raised {alerts : List Alert} {now : Nat} (dated : Dated alerts now) :
    ∀ alert ∈ alerts, alert.raisedAt.isSome = true := by
  obtain ⟨ticks, known, -, -⟩ := dated
  intro alert member
  have listed := List.mem_map_of_mem (f := Alert.raisedAt) member
  rw [known, List.mem_map] at listed
  obtain ⟨tick, -, same⟩ := listed
  rw [← same]
  rfl

end Ticks

/-- After every run the active alerts are those that are left of the history,
and then the active rules. The former are told apart by their ticks, which do
not decrease and are not past the clock. A name can be cleared exactly when one
of them has it, whatever the rules are called; then they are removed and nothing
else changes, and otherwise nothing changes at all.

The two calls that touch the alerts do to them what they do to the history.
Rules have no tick of raising, and so are told from the others. -/
theorem alerts_left_of_history (calls : List (Call σ)) (outside : σ) :
    let state := run calls ({}, outside)
    let leftover := remaining (along perform alertChanges calls ({}, outside))
    let ofRules := state.1.engine.activeRules.map Alert.ofRule
    state.1.activeAlerts = leftover ++ ofRules ∧
    (state.1.activeAlerts.filter fun alert => alert.raisedAt.isSome) = leftover ∧
    (∃ ticks : List Nat, leftover.map Alert.raisedAt = ticks.map some ∧ ticks.Pairwise (· ≤ ·) ∧
      ∀ tick ∈ ticks, tick ≤ state.1.store.ticks) ∧
    ∀ name,
      (state.1.clearAlert name = .error (.notRegistered .alert name) ↔
        ¬∃ alert ∈ leftover, alert.name = name) ∧
      ((¬∃ alert ∈ leftover, alert.name = name) → perform state (.clearAlert name) = state) ∧
      ((∃ alert ∈ leftover, alert.name = name) →
        ∃ after, state.1.clearAlert name = .ok after ∧
          after = { state.1 with alerts := leftover.filter fun alert => alert.name ≠ name } ∧
          after.activeAlerts = (leftover.filter fun alert => alert.name ≠ name) ++ ofRules) := by
  intro state leftover ofRules
  have kept : state.1.alerts = leftover := alerts_run calls outside
  have dated : Dated state.1.alerts state.1.store.ticks := dated_run calls outside
  have listed : state.1.activeAlerts = leftover ++ ofRules := by rw [activeAlerts, kept]
  refine ⟨listed, ?_, kept ▸ dated, ?_⟩
  · have ruled : (ofRules.filter fun alert => alert.raisedAt.isSome) = [] := by
      rw [List.filter_eq_nil_iff]
      intro alert member
      obtain ⟨rule, -, rfl⟩ := List.mem_map.mp member
      exact Bool.false_ne_true
    rw [listed, List.filter_append, ruled, List.append_nil, List.filter_eq_self, ← kept]
    exact dated.raised
  · intro name
    by_cases present : ∃ alert ∈ leftover, alert.name = name
    · have removed := clearAlert_of_mem (kept ▸ present)
      rw [kept] at removed
      refine ⟨iff_of_false ?_ (not_not_intro present), fun absent => absurd present absent,
        fun _ => ⟨_, removed, rfl, rfl⟩⟩
      rw [removed]
      intro impossible
      cases impossible
    · have refused := clearAlert_of_not_mem (kept ▸ present)
      refine ⟨iff_of_true refused present, fun _ => ?_, fun held => absurd held present⟩
      rw [perform, refused]
      rfl

end Simulator

end Telemetry
