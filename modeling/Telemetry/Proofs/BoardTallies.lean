import Telemetry.Proofs.AppRuns
import Telemetry.Proofs.EngineLedger
import Telemetry.Proofs.Tallies

/-!
# The board shows what the listeners were told

The listeners of an application write to its metrics, and so does its hook.
Whatever else listens may act on the rest of the board and may fail or crash,
but does not touch the metrics. Then the metrics are a function of what was
told: they tally the events of each kind, they show the readings of the latest
tick, and they tally the failed calls by kind of event.

One dispatch adds its event, and as many failures as its report says. From that
follows what dispatches made one after another add.
-/
namespace Telemetry

open Metering (Counters Key Label RunMetrics)
open Observer (Entry Listener Outcome Registry Report deliver)

namespace App

/-- The labels under which transitions are counted. -/
def ruleLabels (moved : String × Edge) : List Label :=
  [("rule", moved.1), ("state", moved.2.name)]

/-- The labels under which metrics without a number are counted. -/
def derivationLabels (name : String) : List Label := [("derivation", name)]

/-- The labels under which alerts are counted. -/
def severityLabels (severity : Severity) : List Label := [("severity", severity.name)]

/-- The labels under which failed listener calls are counted. -/
def kindLabels (kind : EventKind) : List Label := [("kind", kind.name)]

/-- Transitions of different rules or directions are counted under different
keys. The two labels are in the order of a key already, so that the key shows
both. -/
theorem separates_ruleLabels : Counters.Separates ruleLabels := by
  intro first second same
  have ordered : "rule" < "state" := by decide
  rw [ruleLabels, ruleLabels, Key.ofLabels_pair ordered, Key.ofLabels_pair ordered] at same
  obtain ⟨name, edge⟩ := first
  obtain ⟨otherName, otherEdge⟩ := second
  simp only [List.cons.injEq, Prod.mk.injEq, true_and, and_true] at same
  obtain ⟨rfl, sameEdge⟩ := same
  cases edge <;> cases otherEdge <;> simp_all [Edge.name]

/-- Different derivations are counted under different keys. -/
theorem separates_derivationLabels : Counters.Separates derivationLabels := by
  intro first second same
  simpa [derivationLabels] using same

/-- Different severities are counted under different keys, as no two have one
name. -/
theorem separates_severityLabels : Counters.Separates severityLabels := by
  intro first second same
  cases first <;> cases second <;> simp_all [severityLabels, Severity.name]

/-- Different kinds of events are counted under different keys, as no two have
one name. -/
theorem separates_kindLabels : Counters.Separates kindLabels := by
  intro first second same
  cases first <;> cases second <;> simp_all [kindLabels, EventKind.name]

/-- What the metrics of an application show after so many steps, these events
and these failures. -/
structure Shown (steps : Nat) (events : List Event) (failed : List EventKind)
    (metrics : RunMetrics) : Prop where
  ticks : metrics.ticks.get [] = UInt64.ofNat steps
  durations : metrics.tickDuration.count [] = UInt64.ofNat steps
  readings : ∀ snapshot, (events.flatMap Event.snapshots).getLast? = some snapshot →
    ∀ channel reading, snapshot.get? channel = some reading →
      metrics.channelValues.get? [("channel", channel)] = some reading
  transitions : metrics.thresholdTransitions.Tallies ruleLabels (events.flatMap Event.moved)
  alerts : metrics.alertsRaised.Tallies severityLabels (events.flatMap Event.severities)
  undefined : metrics.undefinedDerivations.Tallies derivationLabels
    (events.flatMap Event.undefined)
  failures : metrics.listenerFailures.Tallies kindLabels failed

/-- New metrics show that nothing has happened. -/
theorem shown_start : Shown 0 [] [] {} where
  ticks := rfl
  durations := rfl
  readings := fun _ none => nomatch none
  transitions := Counters.tallies_empty _
  alerts := Counters.tallies_empty _
  undefined := Counters.tallies_empty _
  failures := Counters.tallies_empty _

/-- The subscriptions of an application, as it makes them in an empty
registry. -/
def ownEntries {ω : Type} (jsonSnapshots : Bool) :
    List (Entry EventKind (Listener Event (Board ω))) :=
  (attach jsonSnapshots {}).observers.entries

section Writing

variable {ω : Type} {steps : Nat} {events : List Event} {failed : List EventKind}
  {board : Board ω}

/-- A step is counted and timed once, and nothing else that is shown depends on
it. -/
theorem Shown.timed (shown : Shown steps events failed board.metrics) (took : Span) :
    Shown (steps + 1) events failed (board.timed took).metrics where
  ticks := by
    rw [Board.timed, Counters.get_increment, if_pos rfl, shown.ticks, UInt64.ofNat_add]
    rfl
  durations := by
    rw [Board.timed, Metering.Histograms.count_observe, shown.durations, UInt64.ofNat_add]
    rfl
  readings := shown.readings
  transitions := shown.transitions
  alerts := shown.alerts
  undefined := shown.undefined
  failures := shown.failures

/-- The hook notes a failure under the kind of its event, and writes to no other
metric. -/
theorem Shown.failure (shown : Shown steps events failed board.metrics) (kind : EventKind)
    (fault : Fault) :
    Shown steps events (failed ++ [kind]) (failureHook kind fault board).metrics where
  ticks := shown.ticks
  durations := shown.durations
  readings := shown.readings
  transitions := shown.transitions
  alerts := shown.alerts
  undefined := shown.undefined
  failures := Counters.tallies_increment separates_kindLabels shown.failures kind

/-- The metrics with one more event noted. -/
def noted (metrics : RunMetrics) (event : Event) : RunMetrics :=
  { metrics with
    channelValues := event.snapshots.foldl
      (fun gauges snapshot => snapshot.readings.foldl
        (fun gauges (channel, reading) => gauges.set [("channel", channel)] reading) gauges)
      metrics.channelValues
    thresholdTransitions := event.moved.foldl
      (fun counters moved => counters.increment (ruleLabels moved)) metrics.thresholdTransitions
    alertsRaised := event.severities.foldl
      (fun counters severity => counters.increment (severityLabels severity)) metrics.alertsRaised
    undefinedDerivations := event.undefined.foldl
      (fun counters name => counters.increment (derivationLabels name))
      metrics.undefinedDerivations }

/-- The listeners of the application note an event, and none of them fails. Each
kind of event has one listener that writes metrics; others of the kind write
elsewhere. -/
theorem deliver_own (jsonSnapshots : Bool) (event : Event)
    (onFailure : Fault → StateM (Board ω) Unit) (board : Board ω) :
    let own := (ownEntries jsonSnapshots).filter fun entry => entry.kind = event.kind
    let told : Report × Board ω :=
      deliver (fun listener => listener event) onFailure (own.map Entry.listener) board
    told.1.failed = 0 ∧ told.2.metrics = noted board.metrics event := by
  cases event with
  | derived metrics =>
    have counted : noted board.metrics (.derived metrics) =
        (undefinedListener (.derived metrics) board).2.metrics := by
      simp only [noted, Event.undefined, Metrics.undefined, List.foldl_map]
      rfl
    rw [counted]
    cases jsonSnapshots <;> exact ⟨rfl, rfl⟩
  | tick _ | threshold _ | alert _ => cases jsonSnapshots <;> exact ⟨rfl, rfl⟩

/-- Noting an event tallies what it carries and shows what it reads. Each of the
tallies grows by the event's share, which is empty for all kinds of events but
one. -/
theorem Shown.note {metrics : RunMetrics} (shown : Shown steps events failed metrics)
    (event : Event) : Shown steps (events ++ [event]) failed (noted metrics event) where
  ticks := shown.ticks
  durations := shown.durations
  readings := by
    rw [List.flatMap_append, List.flatMap_singleton]
    cases event with
    | tick snapshot =>
      intro latest last channel reading read
      rw [Event.snapshots, List.getLast?_concat] at last
      cases last
      exact Metering.Gauges.get?_setAll snapshot.names_nodup
        ((snapshot.mem_readings_iff channel reading).mpr read) "channel" metrics.channelValues
    | derived _ | threshold _ | alert _ =>
      simp only [Event.snapshots, List.append_nil]
      exact shown.readings
  transitions := by
    rw [List.flatMap_append, List.flatMap_singleton]
    exact Counters.tallies_all separates_ruleLabels shown.transitions event.moved
  alerts := by
    rw [List.flatMap_append, List.flatMap_singleton]
    exact Counters.tallies_all separates_severityLabels shown.alerts event.severities
  undefined := by
    rw [List.flatMap_append, List.flatMap_singleton]
    exact Counters.tallies_all separates_derivationLabels shown.undefined event.undefined
  failures := shown.failures

/-- A listener that leaves the metrics alone. -/
def Discreet (listener : Listener Event (Board ω)) : Prop :=
  ∀ event board, (listener event board).2.metrics = board.metrics

/-- What listeners that leave the metrics alone add to them are their failures.
A call that fails is noted by the hook, and whatever else it did is not in the
metrics. -/
theorem Shown.further {listeners : List (Listener Event (Board ω))}
    (discreet : ∀ listener ∈ listeners, Discreet listener)
    (shown : Shown steps events failed board.metrics) (kind : EventKind) (event : Event) :
    let told : Report × Board ω := deliver (fun listener => listener event)
      (fun fault => modify (failureHook kind fault)) listeners board
    Shown steps events (failed ++ List.replicate told.1.failed kind) told.2.metrics := by
  induction listeners generalizing failed board with
  | nil =>
    change Shown steps events (failed ++ []) board.metrics
    rw [List.append_nil]
    exact shown
  | cons listener rest inductionHypothesis =>
    have others : ∀ other ∈ rest, Discreet other := fun other member =>
      discreet other (List.mem_cons_of_mem listener member)
    have kept : (listener event board).2.metrics = board.metrics :=
      discreet listener List.mem_cons_self event board
    have heard : Shown steps events failed (listener event board).2.metrics := kept.symm ▸ shown
    simp only [Observer.deliver_cons]
    cases (listener event board).1.fault? with
    | none => exact inductionHypothesis others heard
    | some fault =>
      have further := inductionHypothesis others (heard.failure kind fault)
      simp only [List.append_assoc, List.singleton_append, ← List.replicate_succ] at further
      exact further

/-- A registry that the application has set up: its own listeners come first,
those that came later leave the metrics alone, and the hook is its own. -/
structure Metered (jsonSnapshots : Bool)
    (observers : Registry EventKind (Board ω) (Listener Event (Board ω))) : Prop where
  hook : observers.hook = failureHook
  entries : ∃ further, observers.entries = ownEntries jsonSnapshots ++ further ∧
    ∀ entry ∈ further, Discreet entry.listener

variable {jsonSnapshots : Bool}
  {observers : Registry EventKind (Board ω) (Listener Event (Board ω))}

/-- A listener that leaves the metrics alone may join, for it comes behind those
of the application. -/
theorem Metered.subscribe (metered : Metered jsonSnapshots observers) (kind : EventKind)
    {listener : Listener Event (Board ω)} (discreet : Discreet listener) :
    Metered jsonSnapshots (observers.subscribe kind listener).2 := by
  obtain ⟨further, listed, kept⟩ := metered.entries
  refine ⟨metered.hook, further ++ [⟨kind, observers.nextId, listener⟩], ?_, ?_⟩
  · rw [Registry.subscribe, listed, List.append_assoc]
  · intro entry member
    rcases List.mem_append.mp member with former | new
    · exact kept entry former
    · rw [List.mem_singleton] at new
      subst new
      exact discreet

/-- Using a handle of somebody else leaves the listeners of the application,
since a handle removes the subscription that it names and no other. -/
theorem Metered.unsubscribe (metered : Metered jsonSnapshots observers)
    {handle : Observer.Handle EventKind}
    (foreign : ∀ entry ∈ (ownEntries jsonSnapshots : List (Entry _ (Listener Event (Board ω)))),
      handle.names entry = false) :
    Metered jsonSnapshots (observers.unsubscribe handle).2 := by
  obtain ⟨further, listed, kept⟩ := metered.entries
  refine ⟨metered.hook, further.filter fun entry => !handle.names entry, ?_, ?_⟩
  · have untouched : (ownEntries jsonSnapshots).filter (fun entry => !handle.names entry) =
        (ownEntries jsonSnapshots : List (Entry _ (Listener Event (Board ω)))) := by
      rw [List.filter_eq_self]
      intro entry member
      rw [foreign entry member]
      rfl
    simp only [Registry.unsubscribe, listed, List.filter_append, untouched]
  · intro entry member
    exact kept entry (List.mem_of_mem_filter member)

/-- A dispatch adds its event, and the failures that its report counts. The
application's own listeners come first and note the event; those behind them can
only fail. -/
theorem Shown.notify (metered : Metered jsonSnapshots observers)
    (shown : Shown steps events failed board.metrics) (event : Event) :
    let told : Report × Board ω := observers.notify event.kind event board
    Shown steps (events ++ [event]) (failed ++ List.replicate told.1.failed event.kind)
      told.2.metrics := by
  obtain ⟨further, listed, discreet⟩ := metered.entries
  let later := (further.filter fun entry => entry.kind = event.kind).map Entry.listener
  have discreetLater : ∀ listener ∈ later, Discreet listener := by
    intro listener member
    obtain ⟨entry, within, rfl⟩ := List.mem_map.mp member
    exact discreet entry (List.mem_of_mem_filter within)
  have listeners : observers.listeners event.kind =
      ((ownEntries jsonSnapshots).filter fun entry => entry.kind = event.kind).map Entry.listener ++
        later := by
    rw [Registry.listeners, listed, List.filter_append, List.map_append]
  rw [Registry.notify, listeners, metered.hook, Observer.deliver_append]
  obtain ⟨unfailing, written⟩ := deliver_own jsonSnapshots event
    (fun fault => modify (failureHook event.kind fault)) board
  have first := shown.note event
  rw [← written] at first
  have whole := first.further discreetLater event.kind event
  simp only [unfailing, Nat.zero_add]
  exact whole

/-- Dispatches add their events, and as many failures as they count, each going
on from the metrics that the one before has left. -/
theorem Shown.dispatch (metered : Metered jsonSnapshots observers)
    (shown : Shown steps events failed board.metrics) (new : List Event) :
    let told := Telemetry.dispatch observers new board
    ∃ more, more.length = told.1 ∧
      Shown steps (events ++ new) (failed ++ more) told.2.metrics := by
  induction new generalizing events failed board with
  | nil =>
    refine ⟨[], rfl, ?_⟩
    rw [List.append_nil, List.append_nil]
    exact shown
  | cons event rest inductionHypothesis =>
    let told : Report × Board ω := observers.notify event.kind event board
    obtain ⟨more, counted, finished⟩ := inductionHypothesis (shown.notify metered event)
    refine ⟨List.replicate told.1.failed event.kind ++ more, ?_, ?_⟩
    · rw [List.length_append, List.length_replicate, counted]
      rfl
    · simp only [List.append_assoc] at finished
      exact finished

end Writing

end App

end Telemetry
