import Telemetry.Proofs.Announcements
import Telemetry.Proofs.DispatchIsolation

/-!
# What a hub owes to its calls

A hub is used through calls that replace the hook or do what listeners can do as
well: subscribe, unsubscribe, count and notify. Whatever the calls are, and
whatever the listeners do while they are called, the history of the hub's
registry tells who is subscribed, under distinct numbers and in the order of
subscription, and which handles are still good for something.

A dispatch visits the listeners of its kind one after another, each once and
with the payload of the dispatch. When a call has failed the hook is told at
once, before the next listener is called. The report counts both ways to end,
and together these are as many as the kind has listeners.
-/
namespace Telemetry.Observer

variable {κ π σ : Type}

namespace Hub

/-- What can be asked of a hub from outside. -/
inductive Call (κ π σ : Type) where
  | setHook (hook : κ → Fault → σ → σ)
  | act (client : Reaction κ π σ)

namespace Call

/-- The hook that a call puts in place. -/
def hook? : Call κ π σ → Option (κ → Fault → σ → σ)
  | setHook hook => some hook
  | act _ => none

/-- A call that makes only calm listeners subscribe. The client is free to
notify. -/
def Calm : Call κ π σ → Prop
  | setHook _ => True
  | act client => client.Calm true

/-- A call that keeps a log. -/
def logged : Call κ π σ → Call κ π (σ × Log κ π σ)
  | setHook hook => setHook (loggingHook hook)
  | act client => act client.logged

end Call

variable [DecidableEq κ]

/-- Carry out a call, with dispatches nested less than `budget` deep. -/
def perform (budget : Nat) (hub : Hub κ π σ) : Call κ π σ → Option (Hub κ π σ)
  | .setHook hook => some { hub with registry := hub.registry.setHook hook }
  | .act client => ((client.run (Hub.notify budget)).run hub).map Prod.snd

/-- Carry out calls one after another. -/
def serve (budget : Nat) (calls : List (Call κ π σ)) (hub : Hub κ π σ) : Option (Hub κ π σ) :=
  calls.foldlM (perform budget) hub

/-- Calls are carried out from the first on, and what the first leaves is given
to the rest. -/
theorem serve_cons (budget : Nat) (call : Call κ π σ) (rest : List (Call κ π σ))
    (hub : Hub κ π σ) :
    serve budget (call :: rest) hub = (perform budget hub call).bind (serve budget rest) := rfl

/-- A calm call is carried out, and leaves the hub calm. A client may notify,
for those whom it notifies may not. -/
theorem perform_calm {hub : Hub κ π σ} (calm : hub.Calm) {call : Call κ π σ} (quiet : call.Calm) :
    ∃ after, Calm after ∧ ∀ budget, perform (budget + 1) hub call = some after := by
  cases call with
  | setHook hook => exact ⟨{ hub with registry := hub.registry.setHook hook }, calm, fun _ => rfl⟩
  | act client =>
    have settled : Settles fun budget => client.run (Hub.notify (budget + 1)) :=
      Reaction.settles_run (fun _ kind payload => settles_notify kind payload) quiet
    obtain ⟨outcome, after, afterCalm, finished⟩ := settled hub calm
    refine ⟨after, afterCalm, fun budget => ?_⟩
    rw [perform, finished, Option.map_some]

/-- Calm calls are carried out to the last, each finding the hub as calm as the
one before. -/
theorem serve_calm {hub : Hub κ π σ} (calm : hub.Calm) {calls : List (Call κ π σ)}
    (quiet : ∀ call ∈ calls, call.Calm) :
    ∃ after, Calm after ∧ ∀ budget, serve (budget + 1) calls hub = some after := by
  induction calls generalizing hub with
  | nil => exact ⟨hub, calm, fun _ => rfl⟩
  | cons call rest inductionHypothesis =>
    obtain ⟨first, others⟩ := List.forall_mem_cons.mp quiet
    obtain ⟨middle, middleCalm, performed⟩ := perform_calm calm first
    obtain ⟨after, afterCalm, served⟩ := inductionHypothesis middleCalm others
    refine ⟨after, afterCalm, fun budget => ?_⟩
    rw [serve_cons, performed, Option.bind_some, served]

/-- A call with a log does what the plain one does, and its lines continue the
history. The hook changes only where the call puts another in place. -/
theorem perform_logged {budget : Nat} {hub after : Hub κ π σ} {call : Call κ π σ}
    (performed : perform budget hub call = some after) (log : Log κ π σ) :
    after.registry.hook = call.hook?.getD hub.registry.hook ∧
    ∃ lines, perform budget (hub.logged log) call.logged =
        some (after.logged (log.append lines)) ∧
      ∀ past, Chronicle past hub.registry →
        Chronicle (past ++ lines.filterMap Line.change?) after.registry := by
  cases call with
  | setHook hook =>
    cases performed
    refine ⟨rfl, [], ?_, ?_⟩
    · rw [Log.append_nil]
      rfl
    · intro past chronicle
      rw [List.filterMap_nil, List.append_nil]
      exact chronicle.setHook hook
  | act client =>
    obtain ⟨⟨outcome, acted⟩, finished, rfl⟩ := Option.map_eq_some_iff.mp performed
    have shadows : ∀ kind payload, Shadows (Hub.notify budget kind payload : StateT (Hub κ π σ) _ _)
        (Hub.notify budget kind payload) := fun _ _ => Shadows.of_visits notify_logged
    obtain ⟨inner, done, became, _⟩ := client.run_logged shadows finished log
    have changes : (inner ++ [Line.ended log.depth outcome]).filterMap Line.change? =
        inner.filterMap Line.change? := by
      simp [Line.change?]
    refine ⟨became.hook, inner ++ [.ended log.depth outcome], ?_, fun past chronicle => ?_⟩
    · rw [Call.logged, perform, done, Option.map_some]
    · rw [changes]
      exact chronicle.becomes became

/-- Calls with a log do what the plain ones do, and their lines continue the
history. The hook is then the last one that was put in place. -/
theorem serve_logged {budget : Nat} {calls : List (Call κ π σ)} {hub after : Hub κ π σ}
    (served : serve budget calls hub = some after) (log : Log κ π σ) :
    after.registry.hook = (calls.filterMap Call.hook?).getLastD hub.registry.hook ∧
    ∃ lines, serve budget (calls.map Call.logged) (hub.logged log) =
        some (after.logged (log.append lines)) ∧
      ∀ past, Chronicle past hub.registry →
        Chronicle (past ++ lines.filterMap Line.change?) after.registry := by
  induction calls generalizing hub log with
  | nil =>
    cases served
    refine ⟨rfl, [], ?_, ?_⟩
    · rw [Log.append_nil]
      rfl
    · intro past chronicle
      rwa [List.filterMap_nil, List.append_nil]
  | cons call rest inductionHypothesis =>
    rw [serve_cons, Option.bind_eq_some_iff] at served
    obtain ⟨middle, performed, served⟩ := served
    obtain ⟨firstHook, first, done, started⟩ := perform_logged performed log
    obtain ⟨lastHook, second, doneAfter, continued⟩ :=
      inductionHypothesis served (log.append first)
    refine ⟨?_, first ++ second, ?_, ?_⟩
    · rw [lastHook, firstHook]
      cases placed : call.hook? with
      | none => rw [List.filterMap_cons_none placed, Option.getD_none]
      | some hook => rw [List.filterMap_cons_some placed, List.getLastD_cons, Option.getD_some]
    · rw [List.map_cons, serve_cons, done, Option.bind_some, doneAfter, Log.append_append]
    · intro past chronicle
      rw [List.filterMap_append, ← List.append_assoc]
      exact continued _ (started past chronicle)

end Hub

section Plain

/-- A listener that acts on the world outside only, as one that reacts. -/
def Listener.reacting (listener : Listener π σ) (payload : π) : Reaction κ π σ :=
  .consult fun outside =>
    let heard : Outcome × σ := listener payload outside
    .change (fun _ => heard.2) (.finish heard.1)

/-- A registry of listeners that act on the world outside only, as one of those
that react. -/
def Registry.reacting (registry : Registry κ σ (Listener π σ)) :
    Registry κ σ (π → Reaction κ π σ) :=
  registry.rewired (fun _ => Listener.reacting) fun hook => hook

variable [DecidableEq κ]

/-- The listeners of a kind react one by one, in the order of subscription. -/
theorem listeners_reacting (registry : Registry κ σ (Listener π σ)) (kind : κ) :
    registry.reacting.listeners kind = (registry.listeners kind).map Listener.reacting := by
  rw [Registry.reacting, Registry.listeners_rewired, Registry.listeners, List.map_map]
  rfl

/-- Calling listeners that act on the world outside only is delivering to them.
The registry stays what it was, since none of them can reach it. -/
theorem Hub.callAll_reacting (nested : κ → π → StateT (Hub κ π σ) Option Report)
    (registry : Registry κ σ (Listener π σ)) (kind : κ) (payload : π)
    (listeners : List (Listener π σ)) (outside : σ) :
    (callAll nested kind payload (listeners.map Listener.reacting)).run
        ⟨registry.reacting, outside⟩ =
      let told : Report × σ := deliver (fun listener => listener payload)
        (fun fault => modify (registry.hook kind fault)) listeners outside
      some (told.1, ⟨registry.reacting, told.2⟩) := by
  induction listeners generalizing outside with
  | nil => rfl
  | cons listener rest inductionHypothesis =>
    have heard : ((listener.reacting payload).run nested).run ⟨registry.reacting, outside⟩ =
        some ((listener payload outside).1, ⟨registry.reacting, (listener payload outside).2⟩) :=
      rfl
    rw [List.map_cons, run_callAll_cons, heard, Option.bind_some, deliver_cons]
    simp only [Report.count, tell]
    cases (listener payload outside).1.fault? with
    | none => simp only [inductionHypothesis, Option.map_some]
    | some fault =>
      have hooked : ∀ world, callAll nested kind payload (rest.map Listener.reacting)
          ⟨registry.reacting, registry.reacting.hook kind fault world⟩ = _ :=
        fun world => inductionHypothesis (registry.hook kind fault world)
      simp only [StateT.run, hooked, Option.map_some]
      rfl

/-- For listeners that act on the world outside only, the dispatch of a hub is
the plain one, whatever the budget, as long as there is one. -/
theorem Hub.notify_reacting (budget : Nat) (registry : Registry κ σ (Listener π σ)) (kind : κ)
    (payload : π) (outside : σ) :
    (Hub.notify (budget + 1) kind payload).run ⟨registry.reacting, outside⟩ =
      let told : Report × σ := registry.notify kind payload outside
      some (told.1, ⟨registry.reacting, told.2⟩) := by
  rw [run_notify_succ, listeners_reacting, callAll_reacting]
  rfl

end Plain

variable [DecidableEq κ]

/-- Whatever was asked of a hub, its history determines who is subscribed and
what a handle is good for, and a dispatch visits the listeners of its kind once
each and in order.

The same calls are made with a log. Its lines chronicle the registry, and the
lines of a dispatch are those of its visits. -/
theorem Hub.ordered_dispatch (calls : List (Call κ π σ)) (outside : σ) :
    ((∀ call ∈ calls, call.Calm) → ∃ hub, Calm hub ∧
      ∀ budget, serve (budget + 1) calls ⟨{}, outside⟩ = some hub) ∧
    ∀ budget hub, serve budget calls ⟨{}, outside⟩ = some hub →
      (∃ lines, serve budget (calls.map Call.logged) (Hub.logged ⟨{}, outside⟩ {}) =
          some (hub.logged { lines := lines }) ∧
        let changes := lines.filterMap Line.change?
        ((subscriptions changes).map Entry.id).Nodup ∧
        (∀ kind, hub.registry.ofKind kind = (subscriptions changes).filter fun entry =>
          entry.kind = kind ∧ entry.handle ∉ releases changes) ∧
        (Proper changes → ∀ before handle removed later,
          changes = before ++ .unsubscribed handle removed :: later →
            (removed = true ↔ handle ∉ uses before)) ∧
        ∀ handle, let used := hub.registry.unsubscribe handle
          (used.1 = true ↔ handle ∈ handedOut changes ∧ handle ∉ releases changes) ∧
          (used.1 = false → used.2 = hub.registry) ∧
          (used.1 = true → ∃ front entry back,
            entry ∈ subscriptions changes ∧ entry.handle = handle ∧
            hub.registry.ofKind handle.kind = front ++ entry :: back ∧
            used.2.ofKind handle.kind = front ++ back) ∧
          ∀ kind, kind ≠ handle.kind → used.2.ofKind kind = hub.registry.ofKind kind) ∧
      hub.registry.hook =
        (calls.filterMap Call.hook?).getLastD (fun _ _ outside => outside) ∧
      ∀ kind payload,
        (hub.Calm → ∃ report after, Calm after ∧
          ∀ budget, (Hub.notify (budget + 1) kind payload).run hub = some (report, after)) ∧
        (∀ budget report after,
          (Hub.notify budget kind payload).run hub = some (report, after) →
          report.delivered + report.failed = hub.registry.count kind ∧
          ∀ log, ∃ visits : List (Visit κ π σ),
            (Hub.notify budget kind payload).run (hub.logged log) = some (report,
              after.logged (log.append (visits.flatMap (Visit.lines log.depth kind payload)))) ∧
            visits.map Visit.listener = (hub.registry.ofKind kind).map Entry.listener ∧
            (∀ visit ∈ visits, ∀ line ∈ visit.inner, line.Below log.depth) ∧
            report.delivered = visits.countP (fun visit => visit.outcome.fault?.isNone) ∧
            report.failed = visits.countP (fun visit => visit.outcome.fault?.isSome)) ∧
        ∀ registry : Registry κ σ (Listener π σ), hub.registry = registry.reacting →
          ∀ budget, (Hub.notify (budget + 1) kind payload).run hub =
            let told : Report × σ := registry.notify kind payload hub.outside
            some (told.1, ⟨registry.reacting, told.2⟩) := by
  refine ⟨fun quiet => serve_calm (by simp [Calm]) quiet, ?_⟩
  intro budget hub served
  obtain ⟨lastHook, lines, done, continued⟩ := serve_logged served {}
  have chronicle := continued [] (.empty _)
  refine ⟨⟨lines, done, chronicle.nodup, chronicle.ofKind, chronicle.answers, ?_⟩, lastHook, ?_⟩
  · intro handle
    exact ⟨chronicle.removes_iff handle, Registry.unsubscribe_of_not_removed,
      chronicle.ofKind_unsubscribe, fun kind => Registry.ofKind_unsubscribe_of_ne⟩
  · intro kind payload
    refine ⟨settles_notify kind payload hub, ?_, ?_⟩
    · intro budget report after finished
      constructor
      · obtain ⟨visits, _, dispatched⟩ := notify_logged finished {}
        rw [dispatched.report, Report.ofVisits_total, Registry.count, ← dispatched.listeners,
          List.length_map]
      · intro log
        obtain ⟨visits, done, dispatched⟩ := notify_logged finished log
        exact ⟨visits, done, dispatched.listeners, dispatched.inner,
          congrArg Report.delivered dispatched.report, congrArg Report.failed dispatched.report⟩
    · intro registry same budget
      have plain : hub = ⟨registry.reacting, hub.outside⟩ := by rw [← same]
      rw [plain]
      exact notify_reacting budget registry kind payload hub.outside

-- A handle is used twice and does nothing the second time, nor does one that has the number
-- of a listener of another kind. The first listener crashes, and the third is called all the same.
example :
    let writes (number : Nat) (outcome : Outcome) (_ : Unit) : Reaction Bool Unit (List Nat) :=
      .change (· ++ [number]) (.finish outcome)
    let client : Reaction Bool Unit (List Nat) :=
      .subscribe true (writes 10 (.crashed none)) fun first =>
      .subscribe true (writes 20 .handled) fun second =>
      .subscribe true (writes 30 .handled) fun _ =>
      .subscribe false (writes 40 .handled) fun _ =>
      .unsubscribe second fun once =>
      .unsubscribe second fun twice =>
      .unsubscribe ⟨false, first.id⟩ fun other =>
      .change (· ++ [once.toNat, twice.toNat, other.toNat]) <|
      .notify true () fun report =>
      .change (· ++ [report.delivered, report.failed]) (.finish .handled)
    let hub : Hub Bool Unit (List Nat) := ⟨{ hook := fun _ _ world => world ++ [99] }, []⟩
    ((client.run (Hub.notify 1)).run hub).map (fun acted => acted.2.outside) =
      some [1, 0, 0, 10, 99, 30, 1, 1] := by decide +kernel

end Telemetry.Observer
