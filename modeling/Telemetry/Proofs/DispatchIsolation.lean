import Telemetry.Proofs.ReactionLogs

/-!
# Dispatches and those who come and go

Listeners may subscribe and unsubscribe, themselves and others, while they are
called. As long as they do not notify, and subscribe no one who does, a dispatch
comes to its end however its calls end, with an answer that no budget changes.

The dispatch calls the listeners that its kind had when it began. Who
unsubscribes in between is called all the same, and who subscribes is not. The
changes are not lost: the registry is left as if they had been made one after
another without the dispatch, and the next dispatch goes by that.
-/
namespace Telemetry.Observer

variable {κ π σ : Type}

/-- A reaction that notifies only if it is free to, and subscribes no listener
that does. -/
def Reaction.Calm (free : Bool) : Reaction κ π σ → Prop
  | finish _ => True
  | change _ next => next.Calm free
  | consult next => ∀ outside, (next outside).Calm free
  | subscribe _ listener next =>
    (∀ payload, (listener payload).Calm false) ∧ ∀ handle, (next handle).Calm free
  | unsubscribe _ next => ∀ removed, (next removed).Calm free
  | count _ next => ∀ listeners, (next listeners).Calm free
  | notify _ _ next => free = true ∧ ∀ report, (next report).Calm free

namespace Hub

/-- A hub whose listeners never notify. -/
def Calm (hub : Hub κ π σ) : Prop :=
  ∀ entry ∈ hub.registry.entries, ∀ payload, (entry.listener payload).Calm false

/-- On a calm hub all of these runs end in the same way, and the hub stays
calm. -/
def Settles {α : Type} (runs : Nat → StateT (Hub κ π σ) Option α) : Prop :=
  ∀ hub, Calm hub → ∃ answer after, after.Calm ∧
    ∀ budget, (runs budget).run hub = some (answer, after)

namespace Calm

variable {hub : Hub κ π σ}

/-- A hub stays calm when a listener that never notifies joins it. -/
theorem subscribe (calm : hub.Calm) (kind : κ) {listener : π → Reaction κ π σ}
    (quiet : ∀ payload, (listener payload).Calm false) :
    Calm { hub with registry := (hub.registry.subscribe kind listener).2 } := by
  intro entry member
  rcases List.mem_append.mp member with former | new
  · exact calm entry former
  · rw [List.mem_singleton.mp new]
    exact quiet

/-- Telling the hook of a failure changes no listener, so the hub stays calm. -/
theorem tell (calm : hub.Calm) (kind : κ) (outcome : Outcome) : (hub.tell kind outcome).Calm := by
  rw [Calm, registry_tell]
  exact calm

variable [DecidableEq κ]

/-- A hub stays calm when listeners leave it. -/
theorem unsubscribe (calm : hub.Calm) (handle : Handle κ) :
    Calm { hub with registry := (hub.registry.unsubscribe handle).2 } :=
  fun entry member => calm entry (List.mem_of_mem_filter member)

/-- The listeners of a kind on a calm hub are calm, being some of its
listeners. -/
theorem listeners (calm : hub.Calm) (kind : κ) :
    ∀ listener ∈ hub.registry.listeners kind, ∀ payload, (listener payload).Calm false := by
  intro listener member
  obtain ⟨entry, among, rfl⟩ := List.mem_map.mp member
  exact calm entry (List.mem_of_mem_filter among)

end Calm

end Hub

variable [DecidableEq κ]

/-- A calm reaction comes to its end, if the dispatches that it is free to bring
about do. The induction is over the reaction, each of whose steps goes on from a
calm hub. -/
theorem Reaction.settles_run {nested : Nat → κ → π → StateT (Hub κ π σ) Option Report}
    {free : Bool}
    (settled : free = true → ∀ kind payload, Hub.Settles fun budget => nested budget kind payload)
    {reaction : Reaction κ π σ} (quiet : reaction.Calm free) :
    Hub.Settles fun budget => reaction.run (nested budget) := by
  induction reaction with
  | finish outcome => exact fun hub calm => ⟨outcome, hub, calm, fun _ => rfl⟩
  | change update next inductionHypothesis =>
    exact fun hub calm => inductionHypothesis quiet { hub with outside := update hub.outside } calm
  | consult next inductionHypothesis =>
    exact fun hub calm => inductionHypothesis hub.outside (quiet hub.outside) hub calm
  | subscribe kind listener next _ inductionHypothesis =>
    exact fun hub calm => inductionHypothesis _ (quiet.2 _) _ (calm.subscribe kind quiet.1)
  | unsubscribe handle next inductionHypothesis =>
    exact fun hub calm => inductionHypothesis _ (quiet _) _ (calm.unsubscribe handle)
  | count kind next inductionHypothesis =>
    exact fun hub calm => inductionHypothesis _ (quiet _) hub calm
  | notify kind payload next inductionHypothesis =>
    intro hub calm
    obtain ⟨report, told, toldCalm, dispatched⟩ := settled quiet.1 kind payload hub calm
    obtain ⟨outcome, after, afterCalm, finished⟩ :=
      inductionHypothesis report (quiet.2 report) told toldCalm
    refine ⟨outcome, after, afterCalm, fun budget => ?_⟩
    rw [run_notify, dispatched, Option.bind_some]
    exact finished budget

namespace Hub

/-- Calling calm listeners comes to its end, however their calls end. None of
them starts a dispatch, so no budget is used up. -/
theorem settles_callAll (nested : Nat → κ → π → StateT (Hub κ π σ) Option Report) (kind : κ)
    (payload : π) {listeners : List (π → Reaction κ π σ)}
    (quiet : ∀ listener ∈ listeners, ∀ payload, (listener payload).Calm false) :
    Settles fun budget => callAll (nested budget) kind payload listeners := by
  induction listeners with
  | nil => exact fun hub calm => ⟨{}, hub, calm, fun _ => rfl⟩
  | cons listener rest inductionHypothesis =>
    intro hub calm
    obtain ⟨first, others⟩ := List.forall_mem_cons.mp quiet
    have alone : Settles fun budget => (listener payload).run (nested budget) :=
      Reaction.settles_run (by simp) (first payload)
    obtain ⟨outcome, heard, heardCalm, reacted⟩ := alone hub calm
    obtain ⟨report, after, afterCalm, called⟩ :=
      inductionHypothesis others _ (heardCalm.tell kind outcome)
    refine ⟨report.count outcome, after, afterCalm, fun budget => ?_⟩
    rw [run_callAll_cons, reacted, Option.bind_some, called, Option.map_some]

/-- A dispatch to calm listeners comes to its end, with a budget for itself
alone. -/
theorem settles_notify (kind : κ) (payload : π) :
    Settles fun budget => (Hub.notify (budget + 1) kind payload : StateT (Hub κ π σ) _ _) := by
  intro hub calm
  exact settles_callAll Hub.notify kind payload (calm.listeners kind) hub calm

end Hub

/-- A dispatch calls the listeners that it has found, each once and in their
order, whoever comes or goes meanwhile, and leaves the changes to the next
one.

The listeners are looked up once, before the first of them is called. The log
shows the visits, and between them the changes that were made to the
registry. -/
theorem Hub.dispatch_isolated (hub : Hub κ π σ) (kind : κ) (payload : π) :
    (hub.Calm → ∃ report after, Calm after ∧
      ∀ budget, (Hub.notify (budget + 1) kind payload).run hub = some (report, after)) ∧
    ∀ budget report after, (Hub.notify budget kind payload).run hub = some (report, after) →
      ∀ log, ∃ visits : List (Visit κ π σ),
        (Hub.notify budget kind payload).run (hub.logged log) = some (report,
          after.logged (log.append (visits.flatMap (Visit.lines log.depth kind payload)))) ∧
        visits.map Visit.listener = hub.registry.listeners kind ∧
        (∀ visit ∈ visits, ∀ line ∈ visit.inner, line.Below log.depth) ∧
        let left := ((visits.flatMap Visit.inner).filterMap Line.change?).foldl Change.apply
          hub.registry
        after.registry = left ∧
        ∀ budget next payload report last,
          (Hub.notify budget next payload).run after = some (report, last) →
          ∀ log, ∃ visits : List (Visit κ π σ),
            (Hub.notify budget next payload).run (after.logged log) = some (report,
              last.logged (log.append (visits.flatMap (Visit.lines log.depth next payload)))) ∧
            visits.map Visit.listener = left.listeners next := by
  refine ⟨fun calm => settles_notify kind payload hub calm, ?_⟩
  intro budget report after finished log
  obtain ⟨visits, done, dispatched⟩ := notify_logged finished log
  have left := dispatched.changes.eq_foldl
  refine ⟨visits, done, dispatched.listeners, dispatched.inner, left, ?_⟩
  intro budget next payload report last finished log
  obtain ⟨visits, done, dispatched⟩ := notify_logged finished log
  rw [← left]
  exact ⟨visits, done, dispatched.listeners⟩

-- The first listener takes out the second, lets a third in and crashes. The second is
-- called this time and not the next, the third the next time and not this.
example :
    let writes (number : Nat) (_ : Unit) : Reaction Unit Unit (List Nat) :=
      .change (· ++ [number]) (.finish .handled)
    let first (_ : Unit) : Reaction Unit Unit (List Nat) :=
      .change (· ++ [1]) <| .unsubscribe ⟨(), 2⟩ fun _ =>
        .subscribe () (writes 3) fun _ => .finish (.crashed none)
    let hub : Hub Unit Unit (List Nat) :=
      ⟨{ entries := [⟨(), 1, first⟩, ⟨(), 2, writes 2⟩], nextId := 3 }, []⟩
    let twice : Reaction Unit Unit (List Nat) :=
      .notify () () fun _ => .notify () () fun _ => .finish .handled
    ((twice.run (Hub.notify 1)).run hub).map (fun told => told.2.outside) =
      some [1, 2, 1, 3] := rfl

end Telemetry.Observer
