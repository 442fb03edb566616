import Telemetry.Observer.Reaction
import Telemetry.Proofs.DispatchRecords
import Telemetry.Proofs.SubscriptionHistory

/-!
# Reactions that keep a log

To see in which order things happen on a hub, let everybody keep a log. A
listener writes a line when it is called and when its call ends, and for every
change that it makes to the registry; the hook writes a line when it is told of
a failure. Listeners that are subscribed along the way do the same. The log lies
in the world outside, where it cannot get in the way, so a run with a log is the
plain run beside its lines.

Dispatches can be nested. A line says how many dispatches were under way, so
that the calls of one dispatch can be told from those that its listeners bring
about.
-/
namespace Telemetry.Observer

variable {κ π σ : Type}

/-- A line of a log. -/
inductive Line (κ π σ : Type) where
  /-- Somebody has subscribed or unsubscribed. -/
  | changed (change : Change κ (π → Reaction κ π σ))
  /-- A listener was called. -/
  | called (depth : Nat) (listener : π → Reaction κ π σ) (payload : π)
  /-- The call of a listener, or what a client did, came to its end. -/
  | ended (depth : Nat) (outcome : Outcome)
  /-- The hook was told of a failure. -/
  | hooked (depth : Nat) (kind : κ) (fault : Fault)

namespace Line

/-- The change that a line tells of. -/
def change? : Line κ π σ → Option (Change κ (π → Reaction κ π σ))
  | changed change => some change
  | _ => none

/-- A line that no dispatch up to a depth has caused itself. -/
def Below (depth : Nat) : Line κ π σ → Prop
  | changed _ => True
  | called deeper _ _ | ended deeper _ | hooked deeper _ _ => depth < deeper

/-- A line that belongs to no dispatch up to a depth belongs to none up to a
lesser one. So what is known inside a dispatch may be used outside of it. -/
theorem Below.mono {line : Line κ π σ} {depth inner : Nat} (below : line.Below inner)
    (outer : depth ≤ inner) : line.Below depth := by
  cases line with
  | changed change => trivial
  | called deeper | ended deeper | hooked deeper => exact Nat.lt_of_le_of_lt outer below

end Line

/-- The lines written so far, and how many dispatches are under way. -/
structure Log (κ π σ : Type) where
  depth : Nat := 0
  lines : List (Line κ π σ) := []

namespace Log

/-- Add lines. -/
def append (log : Log κ π σ) (lines : List (Line κ π σ)) : Log κ π σ :=
  { log with lines := log.lines ++ lines }

/-- A dispatch begins. -/
def enter (log : Log κ π σ) : Log κ π σ := { log with depth := log.depth + 1 }

/-- A dispatch is over. -/
def leave (log : Log κ π σ) : Log κ π σ := { log with depth := log.depth - 1 }

/-- A log without new lines is the same log. -/
@[simp] theorem append_nil (log : Log κ π σ) : log.append [] = log := by
  simp [append]

/-- Lines added in two parts are lines added at once. With this the lines of a
run are collected as one list. -/
@[simp] theorem append_append (log : Log κ π σ) (first second : List (Line κ π σ)) :
    (log.append first).append second = log.append (first ++ second) := by
  simp [append]

/-- Writing does not begin or end a dispatch. -/
@[simp] theorem depth_append (log : Log κ π σ) (lines : List (Line κ π σ)) :
    (log.append lines).depth = log.depth := rfl

end Log

/-- Write a line in the world outside. -/
def write (line : Nat → Line κ π σ) (world : σ × Log κ π σ) : σ × Log κ π σ :=
  (world.1, world.2.append [line world.2.depth])

/-- A reaction that keeps a log, and makes those whom it subscribes keep it
too. -/
def Reaction.logged : Reaction κ π σ → Reaction κ π (σ × Log κ π σ)
  | finish outcome => .change (write fun depth => .ended depth outcome) (.finish outcome)
  | change update next => .change (fun world => (update world.1, world.2)) next.logged
  | consult next => .consult fun world => (next world.1).logged
  | subscribe kind listener next =>
    .subscribe kind
      (fun payload =>
        .change (write fun depth => .called depth listener payload) (listener payload).logged)
      fun handle =>
        .change (write fun _ => .changed (.subscribed ⟨kind, handle.id, listener⟩))
          (next handle).logged
  | unsubscribe handle next =>
    .unsubscribe handle fun removed =>
      .change (write fun _ => .changed (.unsubscribed handle removed)) (next removed).logged
  | count kind next => .count kind fun listeners => (next listeners).logged
  | notify kind payload next =>
    .change (fun world => (world.1, world.2.enter))
      (.notify kind payload fun report =>
        .change (fun world => (world.1, world.2.leave)) (next report).logged)

/-- A listener that keeps a log. -/
def loggingListener (listener : π → Reaction κ π σ) (payload : π) :
    Reaction κ π (σ × Log κ π σ) :=
  .change (write fun depth => .called depth listener payload) (listener payload).logged

/-- A hook that keeps a log. -/
def loggingHook (hook : κ → Fault → σ → σ) (kind : κ) (fault : Fault) (world : σ × Log κ π σ) :
    σ × Log κ π σ :=
  write (fun depth => .hooked depth kind fault) (hook kind fault world.1, world.2)

/-- A registry whose listeners and whose hook keep a log. -/
def Registry.logged (registry : Registry κ σ (π → Reaction κ π σ)) :
    Registry κ (σ × Log κ π σ) (π → Reaction κ π (σ × Log κ π σ)) :=
  registry.rewired (fun _ => loggingListener) loggingHook

/-- A hub on which a log is kept. -/
def Hub.logged (hub : Hub κ π σ) (log : Log κ π σ) : Hub κ π (σ × Log κ π σ) :=
  ⟨hub.registry.logged, (hub.outside, log)⟩

/-- What a listener did while it was called by a dispatch: the lines it has
written or brought about in between, and how the call ended. -/
structure Visit (κ π σ : Type) where
  listener : π → Reaction κ π σ
  inner : List (Line κ π σ)
  outcome : Outcome

/-- The lines of a visit. The hook comes right after a call that failed. -/
def Visit.lines (depth : Nat) (kind : κ) (payload : π) (visit : Visit κ π σ) :
    List (Line κ π σ) :=
  .called depth visit.listener payload ::
    (visit.inner ++ .ended depth visit.outcome ::
      (visit.outcome.fault?.map fun fault => .hooked depth kind fault).toList)

/-- The report on some visits. -/
def Report.ofVisits (visits : List (Visit κ π σ)) : Report where
  delivered := visits.countP fun visit => visit.outcome.fault?.isNone
  failed := visits.countP fun visit => visit.outcome.fault?.isSome

/-- Whoever is subscribed by a reaction with a log keeps the log. The new
listener is the one that the wrapping of a whole registry would give it, so
registry and reaction agree. -/
theorem logged_subscribe (kind : κ) (listener : π → Reaction κ π σ)
    (next : Handle κ → Reaction κ π σ) :
    (Reaction.subscribe kind listener next).logged =
      .subscribe kind (loggingListener listener) fun handle =>
        .change (write fun _ => .changed (.subscribed ⟨kind, handle.id, listener⟩))
          (next handle).logged := rfl

/-- A report with one more call. -/
def Report.count (outcome : Outcome) (report : Report) : Report :=
  match outcome.fault? with
  | none => { report with delivered := report.delivered + 1 }
  | some _ => { report with failed := report.failed + 1 }

/-- One more visit is one more call in the report, on the side that its outcome
decides. -/
theorem Report.ofVisits_cons (visit : Visit κ π σ) (visits : List (Visit κ π σ)) :
    Report.ofVisits (visit :: visits) = (Report.ofVisits visits).count visit.outcome := by
  cases ended : visit.outcome.fault? <;>
    simp [Report.ofVisits, Report.count, ended]

/-- Every visit is in a report once: it either has a fault or has none. -/
theorem Report.ofVisits_total (visits : List (Visit κ π σ)) :
    (Report.ofVisits visits).delivered + (Report.ofVisits visits).failed = visits.length := by
  induction visits with
  | nil => rfl
  | cons visit rest inductionHypothesis =>
    rw [ofVisits_cons, List.length_cons, ← inductionHypothesis, Report.count]
    split
    · exact Nat.add_right_comm _ _ _
    · exact (Nat.add_assoc _ _ _).symm

/-- Of its lines, a visit owes the changes to the listener. The lines that the
dispatch adds, of the call, of its end and of the hook, tell of no change. -/
theorem Visit.changes_lines (depth : Nat) (kind : κ) (payload : π) (visit : Visit κ π σ) :
    (visit.lines depth kind payload).filterMap Line.change? =
      visit.inner.filterMap Line.change? := by
  cases ended : visit.outcome.fault? <;>
    simp [Visit.lines, List.filterMap_cons, Line.change?, ended]

namespace Hub

/-- The hub after the hook was told of a failure, if there was one. -/
def tell (kind : κ) (outcome : Outcome) (hub : Hub κ π σ) : Hub κ π σ :=
  match outcome.fault? with
  | none => hub
  | some fault => { hub with outside := hub.registry.hook kind fault hub.outside }

/-- The hook cannot change who is subscribed: it acts on the world outside
only. -/
theorem registry_tell (kind : κ) (outcome : Outcome) (hub : Hub κ π σ) :
    (hub.tell kind outcome).registry = hub.registry := by
  unfold tell
  split <;> rfl

/-- Telling a hook that keeps a log writes one line if there was a failure and
none otherwise, and does outside what the plain hook does. -/
theorem tell_logged (kind : κ) (outcome : Outcome) (hub : Hub κ π σ) (log : Log κ π σ) :
    (hub.logged log).tell kind outcome =
      (hub.tell kind outcome).logged
        (log.append (outcome.fault?.map fun fault => .hooked log.depth kind fault).toList) := by
  unfold tell
  cases outcome.fault? with
  | none => exact congrArg hub.logged log.append_nil.symm
  | some fault => rfl

end Hub

variable [DecidableEq κ]

/-- The listeners of a registry with a log are those of the plain one, each
keeping it, in the same order. -/
theorem listeners_logged (registry : Registry κ σ (π → Reaction κ π σ)) (kind : κ) :
    registry.logged.listeners kind = (registry.listeners kind).map loggingListener := by
  rw [Registry.logged, Registry.listeners_rewired, Registry.listeners, List.map_map]
  rfl

section Requests

variable (nested : κ → π → StateT (Hub κ π σ) Option Report) (hub : Hub κ π σ)

/-!
What each request of a reaction does to a hub, and how the reaction goes on.
-/

/-- A reaction that is finished leaves the hub alone and gives its outcome. -/
theorem run_finish (outcome : Outcome) :
    ((Reaction.finish outcome).run nested).run hub = some (outcome, hub) := rfl

/-- A change acts on the world outside, and the reaction goes on from there. -/
theorem run_change (update : σ → σ) (next : Reaction κ π σ) :
    ((Reaction.change update next).run nested).run hub =
      (next.run nested).run { hub with outside := update hub.outside } := rfl

/-- Looking at the world outside changes nothing; the reaction goes on by what
it has seen. -/
theorem run_consult (next : σ → Reaction κ π σ) :
    ((Reaction.consult next).run nested).run hub = ((next hub.outside).run nested).run hub := rfl

/-- A subscription made by a reaction takes the next number of the registry at
that moment, and the reaction goes on with its handle. -/
theorem run_subscribe (kind : κ) (listener : π → Reaction κ π σ)
    (next : Handle κ → Reaction κ π σ) :
    ((Reaction.subscribe kind listener next).run nested).run hub =
      ((next ⟨kind, hub.registry.nextId⟩).run nested).run
        { hub with registry := (hub.registry.subscribe kind listener).2 } := rfl

/-- An unsubscription made by a reaction takes effect at once, and the reaction
goes on knowing whether anything was removed. -/
theorem run_unsubscribe (handle : Handle κ) (next : Bool → Reaction κ π σ) :
    ((Reaction.unsubscribe handle next).run nested).run hub =
      ((next (hub.registry.unsubscribe handle).1).run nested).run
        { hub with registry := (hub.registry.unsubscribe handle).2 } := rfl

/-- Counting listeners sees the registry at that moment and changes nothing. -/
theorem run_count (kind : κ) (next : Nat → Reaction κ π σ) :
    ((Reaction.count kind next).run nested).run hub =
      ((next (hub.registry.count kind)).run nested).run hub := rfl

/-- A reaction that dispatches an event waits for the end of that dispatch and
goes on with its report. If the dispatch has no end within the budget, the
reaction has none. -/
theorem run_notify (kind : κ) (payload : π) (next : Report → Reaction κ π σ) :
    ((Reaction.notify kind payload next).run nested).run hub =
      ((nested kind payload).run hub).bind fun told => ((next told.1).run nested).run told.2 := rfl

end Requests

/-- A dispatch with a log does what the plain one does. Its lines tell of the
changes to the registry, and of nothing that belongs to an outer dispatch. -/
def Shadows (plain : StateT (Hub κ π σ) Option Report)
    (logged : StateT (Hub κ π (σ × Log κ π σ)) Option Report) : Prop :=
  ∀ {hub after : Hub κ π σ} {report : Report}, plain.run hub = some (report, after) → ∀ log,
    ∃ lines, logged.run (hub.logged log) = some (report, after.logged (log.append lines)) ∧
      hub.registry.Becomes (lines.filterMap Line.change?) after.registry ∧
      ∀ line ∈ lines, ∀ depth < log.depth, line.Below depth

/-- A reaction with a log does what the plain one does. Between its beginning
and its end it writes of its changes and of dispatches that it brings about. The
induction is on the reaction, with any hub and any log to start from; only where
it dispatches, the nested dispatch is asked to do the same. -/
theorem Reaction.run_logged {nested : κ → π → StateT (Hub κ π σ) Option Report}
    {logged : κ → π → StateT (Hub κ π (σ × Log κ π σ)) Option Report}
    (shadows : ∀ kind payload, Shadows (nested kind payload) (logged kind payload))
    (reaction : Reaction κ π σ) {hub after : Hub κ π σ} {outcome : Outcome}
    (finished : (reaction.run nested).run hub = some (outcome, after)) (log : Log κ π σ) :
    ∃ inner, (reaction.logged.run logged).run (hub.logged log) =
        some (outcome, after.logged (log.append (inner ++ [.ended log.depth outcome]))) ∧
      hub.registry.Becomes (inner.filterMap Line.change?) after.registry ∧
      ∀ line ∈ inner, line.Below log.depth := by
  induction reaction generalizing hub log with
  | finish given =>
    rw [run_finish] at finished
    cases finished
    exact ⟨[], rfl, .unchanged _, by simp⟩
  | change update next inductionHypothesis =>
    rw [run_change] at finished
    exact inductionHypothesis finished log
  | consult next inductionHypothesis =>
    rw [run_consult] at finished
    exact inductionHypothesis _ finished log
  | subscribe kind listener next _ inductionHypothesis =>
    rw [run_subscribe] at finished
    let entry : Entry κ (π → Reaction κ π σ) := ⟨kind, hub.registry.nextId, listener⟩
    obtain ⟨inner, done, became, below⟩ :=
      inductionHypothesis _ finished (log.append [.changed (.subscribed entry)])
    refine ⟨.changed (.subscribed entry) :: inner, ?_, .subscribed kind listener became, ?_⟩
    · rw [Log.append_append] at done
      refine Eq.trans ?_ done
      rw [logged_subscribe, run_subscribe, run_change]
      simp only [Hub.logged, Registry.logged, Registry.rewired_subscribe (fun _ => loggingListener)]
      rfl
    · exact List.forall_mem_cons.mpr ⟨trivial, below⟩
  | unsubscribe handle next inductionHypothesis =>
    rw [run_unsubscribe] at finished
    let removed := (hub.registry.unsubscribe handle).1
    obtain ⟨inner, done, became, below⟩ :=
      inductionHypothesis _ finished (log.append [.changed (.unsubscribed handle removed)])
    refine ⟨.changed (.unsubscribed handle removed) :: inner, ?_, .unsubscribed handle became, ?_⟩
    · rw [Log.append_append] at done
      refine Eq.trans ?_ done
      rw [Reaction.logged, run_unsubscribe, run_change]
      simp only [Hub.logged, Registry.logged, Registry.rewired_unsubscribe]
      rfl
    · exact List.forall_mem_cons.mpr ⟨trivial, below⟩
  | count kind next inductionHypothesis =>
    rw [run_count] at finished
    obtain ⟨inner, done, rest⟩ := inductionHypothesis _ finished log
    refine ⟨inner, ?_, rest⟩
    rw [← done, Reaction.logged, run_count, Hub.logged, Registry.logged, Registry.count_rewired]
  | notify kind payload next inductionHypothesis =>
    rw [run_notify, Option.bind_eq_some_iff] at finished
    obtain ⟨⟨report, told⟩, dispatched, finished⟩ := finished
    obtain ⟨lines, entered, first, inside⟩ := shadows kind payload dispatched log.enter
    obtain ⟨inner, done, second, below⟩ := inductionHypothesis _ finished (log.append lines)
    refine ⟨lines ++ inner, ?_, ?_, ?_⟩
    · rw [Log.append_append, Log.depth_append, ← List.append_assoc] at done
      refine Eq.trans ?_ done
      have deeper : (logged kind payload).run
          { hub.logged log with outside := (hub.outside, log.enter) } = _ := entered
      rw [Reaction.logged, run_change, run_notify]
      simp only [Hub.logged] at deeper ⊢
      rw [deeper]
      rfl
    · rw [List.filterMap_append]
      exact first.append second
    · intro line member
      rcases List.mem_append.mp member with nested | own
      · exact inside line nested log.depth (Nat.lt_succ_self _)
      · exact below line own

namespace Hub

/-- Call listeners one after another, telling the hook of each failure. -/
def callAll (nested : κ → π → StateT (Hub κ π σ) Option Report) (kind : κ) (payload : π)
    (listeners : List (π → Reaction κ π σ)) : StateT (Hub κ π σ) Option Report :=
  deliver (fun listener => (listener payload).run nested)
    (fun fault => modify fun hub =>
      { hub with outside := hub.registry.hook kind fault hub.outside })
    listeners

/-- A dispatch calls the listeners that it finds when it begins. Those
subscribed by the calls are not among them, and those unsubscribed still are. -/
theorem run_notify_succ (budget : Nat) (kind : κ) (payload : π) (hub : Hub κ π σ) :
    (Hub.notify (budget + 1) kind payload).run hub =
      (callAll (Hub.notify budget) kind payload (hub.registry.listeners kind)).run hub := rfl

/-- The first listener is called, the hook is told if it failed, and only then
come the others. The report of the others is completed by this call. -/
theorem run_callAll_cons (nested : κ → π → StateT (Hub κ π σ) Option Report) (kind : κ)
    (payload : π) (listener : π → Reaction κ π σ) (rest : List (π → Reaction κ π σ))
    (hub : Hub κ π σ) :
    (callAll nested kind payload (listener :: rest)).run hub =
      (((listener payload).run nested).run hub).bind fun heard =>
        ((callAll nested kind payload rest).run (heard.2.tell kind heard.1)).map fun later =>
          (later.1.count heard.1, later.2) := by
  simp only [callAll, deliver, StateT.run_bind]
  cases ((listener payload).run nested).run hub with
  | none => rfl
  | some heard =>
    obtain ⟨outcome, after⟩ := heard
    simp only [tell, Report.count]
    cases ended : outcome.fault? <;> simp [ended]

end Hub

/-- What the visits of a dispatch show: they are made to these listeners, what
happens within them belongs to no dispatch up to this depth, they are counted in
the report, and the changes made within them lead from one registry to the
other. -/
structure Dispatched (listeners : List (π → Reaction κ π σ)) (depth : Nat)
    (before after : Registry κ σ (π → Reaction κ π σ)) (report : Report)
    (visits : List (Visit κ π σ)) : Prop where
  listeners : visits.map Visit.listener = listeners
  inner : ∀ visit ∈ visits, ∀ line ∈ visit.inner, line.Below depth
  report : report = .ofVisits visits
  changes : before.Becomes ((visits.flatMap Visit.inner).filterMap Line.change?) after

/-- Calling listeners with a log does what calling the plain ones does, visit by
visit. The induction is on the listeners still to be called; the hub and the log
are whatever the earlier ones left. -/
theorem Hub.callAll_logged {nested : κ → π → StateT (Hub κ π σ) Option Report}
    {logged : κ → π → StateT (Hub κ π (σ × Log κ π σ)) Option Report}
    (shadows : ∀ kind payload, Shadows (nested kind payload) (logged kind payload)) {kind : κ}
    {payload : π} {listeners : List (π → Reaction κ π σ)} {hub after : Hub κ π σ}
    {report : Report}
    (finished : (callAll nested kind payload listeners).run hub = some (report, after))
    (log : Log κ π σ) :
    ∃ visits, (callAll logged kind payload (listeners.map loggingListener)).run (hub.logged log) =
        some (report,
          after.logged (log.append (visits.flatMap (Visit.lines log.depth kind payload)))) ∧
      Dispatched listeners log.depth hub.registry after.registry report visits := by
  induction listeners generalizing hub log report with
  | nil =>
    cases finished
    refine ⟨[], ?_, rfl, by simp, rfl, .unchanged _⟩
    rw [List.flatMap_nil, Log.append_nil]
    rfl
  | cons listener rest inductionHypothesis =>
    rw [run_callAll_cons, Option.bind_eq_some_iff] at finished
    obtain ⟨⟨outcome, heard⟩, reacted, finished⟩ := finished
    obtain ⟨⟨later, final⟩, called, same⟩ := Option.map_eq_some_iff.mp finished
    cases same
    obtain ⟨inner, wrote, became, below⟩ := Reaction.run_logged shadows (listener payload) reacted
      (log.append [.called log.depth listener payload])
    let visit : Visit κ π σ := ⟨listener, inner, outcome⟩
    obtain ⟨visits, done, dispatched⟩ :=
      inductionHypothesis called (log.append (visit.lines log.depth kind payload))
    refine ⟨visit :: visits, ?_, ?_⟩
    · have first : ((loggingListener listener payload).run logged).run (hub.logged log) = _ := wrote
      have line : (log.append [.called log.depth listener payload]).append
            (inner ++ [.ended log.depth outcome]) =
          log.append
            (.called log.depth listener payload :: (inner ++ [.ended log.depth outcome])) :=
        Log.append_append _ _ _
      have lines : (.called log.depth listener payload :: (inner ++ [.ended log.depth outcome])) ++
            (outcome.fault?.map fun fault => .hooked log.depth kind fault).toList =
          visit.lines log.depth kind payload := by
        simp [Visit.lines, visit]
      rw [List.map_cons, run_callAll_cons, first, Option.bind_some, Log.depth_append, line,
        tell_logged, Log.depth_append, Log.append_append, lines, done, Option.map_some,
        List.flatMap_cons, ← Log.append_append, Log.depth_append]
    · constructor
      · rw [List.map_cons, dispatched.listeners]
      · exact List.forall_mem_cons.mpr ⟨below, dispatched.inner⟩
      · rw [Report.ofVisits_cons, ← dispatched.report]
      · rw [List.flatMap_cons, List.filterMap_append]
        have further := dispatched.changes
        rw [registry_tell] at further
        exact became.append further

namespace Dispatched

variable {listeners : List (π → Reaction κ π σ)} {depth : Nat}
  {before after : Registry κ σ (π → Reaction κ π σ)} {report : Report}
  {visits : List (Visit κ π σ)}

/-- The changes in the lines of the visits are those made within them, so the
lines alone tell how the registry has become what it is. -/
theorem changes_lines (dispatched : Dispatched listeners depth before after report visits)
    (kind : κ) (payload : π) :
    before.Becomes ((visits.flatMap (Visit.lines depth kind payload)).filterMap Line.change?)
      after := by
  have same : (visits.flatMap (Visit.lines depth kind payload)).filterMap Line.change? =
      (visits.flatMap Visit.inner).filterMap Line.change? := by
    simp only [List.filterMap_flatMap, Visit.changes_lines]
  rw [same]
  exact dispatched.changes

/-- No line of the visits belongs to an outer dispatch. Their own lines have
this depth, and what happens within them lies deeper still. -/
theorem below_lines (dispatched : Dispatched listeners depth before after report visits)
    (kind : κ) (payload : π) :
    ∀ line ∈ visits.flatMap (Visit.lines depth kind payload), ∀ outer < depth,
      line.Below outer := by
  intro line member outer lower
  obtain ⟨visit, visited, within⟩ := List.mem_flatMap.mp member
  simp only [Visit.lines, List.mem_cons, List.mem_append, Option.mem_toList, Option.map_eq_some_iff]
    at within
  rcases within with rfl | inner | rfl | ⟨fault, _, rfl⟩
  · exact lower
  · exact (dispatched.inner visit visited line inner).mono (Nat.le_of_lt lower)
  · exact lower
  · exact lower

end Dispatched

/-- A dispatch that can be taken apart into visits does what the plain one does.
This is how what is known for one budget serves the reactions that are run with
the next. -/
theorem Shadows.of_visits {kind : κ} {payload : π} {plain : StateT (Hub κ π σ) Option Report}
    {logged : StateT (Hub κ π (σ × Log κ π σ)) Option Report}
    (visited : ∀ {hub after : Hub κ π σ} {report : Report}, plain.run hub = some (report, after) →
      ∀ log, ∃ visits, logged.run (hub.logged log) = some (report,
          after.logged (log.append (visits.flatMap (Visit.lines log.depth kind payload)))) ∧
        Dispatched (hub.registry.listeners kind) log.depth hub.registry after.registry report
          visits) :
    Shadows plain logged := by
  intro hub after report finished log
  obtain ⟨visits, done, dispatched⟩ := visited finished log
  exact ⟨_, done, dispatched.changes_lines kind payload, dispatched.below_lines kind payload⟩

/-- A dispatch with a log does what the plain one does, visit by visit. The
visits are made to the listeners that the kind has when the dispatch begins. The
induction is on the budget: the dispatches within a visit have a lesser one. -/
theorem Hub.notify_logged {budget : Nat} {kind : κ} {payload : π} {hub after : Hub κ π σ}
    {report : Report} (finished : (Hub.notify budget kind payload).run hub = some (report, after))
    (log : Log κ π σ) :
    ∃ visits, (Hub.notify budget kind payload).run (hub.logged log) =
        some (report,
          after.logged (log.append (visits.flatMap (Visit.lines log.depth kind payload)))) ∧
      Dispatched (hub.registry.listeners kind) log.depth hub.registry after.registry report
        visits := by
  induction budget generalizing kind payload hub after report log with
  | zero => cases finished
  | succ budget inductionHypothesis =>
    rw [run_notify_succ] at finished
    have shadows : ∀ kind payload, Shadows (Hub.notify budget kind payload : StateT (Hub κ π σ) _ _)
        (Hub.notify budget kind payload) := fun _ _ => Shadows.of_visits inductionHypothesis
    obtain ⟨visits, done, dispatched⟩ := callAll_logged shadows finished log
    refine ⟨visits, ?_, dispatched⟩
    rw [run_notify_succ, ← done, ← listeners_logged]
    rfl

end Telemetry.Observer
