import Mathlib.Data.List.Nodup
import Telemetry.Observer.Dispatch
import Telemetry.Proofs.Subscriptions

/-!
# Dispatches, and diaries of them

A dispatch goes through its listeners one after another: each call, then the
hook if the call failed, then the rest. What it does can be followed by putting
other listeners in the place of those that are there. Such a registry is
rewired: kinds and numbers stay, and subscribing, unsubscribing and counting go
on as before.

One way to rewire is to let everybody write in a diary beside the world. A
listener notes how each of its calls has ended, and the hook what it was told.
Nobody reads the diary during a dispatch, so the dispatch goes as it would
without, and what stands in the diary afterwards tells of every listener of the
kind, once and in order.
-/
namespace Telemetry.Observer

/-- A dispatch tells its first listener, then the hook if that call failed, then
the others, whatever the outcome was. -/
theorem deliver_cons {σ ℓ : Type} (call : ℓ → StateM σ Outcome)
    (onFailure : Fault → StateM σ Unit) (listener : ℓ) (rest : List ℓ) (outside : σ) :
    (deliver call onFailure (listener :: rest) : StateM σ Report) outside =
      let heard : Outcome × σ := call listener outside
      match heard.1.fault? with
      | none =>
        let later : Report × σ := deliver call onFailure rest heard.2
        ({ later.1 with delivered := later.1.delivered + 1 }, later.2)
      | some fault =>
        let later : Report × σ := deliver call onFailure rest (onFailure fault heard.2).2
        ({ later.1 with failed := later.1.failed + 1 }, later.2) := by
  change (match (call listener outside).1.fault? with
    | none => _
    | some fault => _ : StateM σ Report) (call listener outside).2 = _
  dsimp only
  cases (call listener outside).1.fault? <;> rfl

/-- A dispatch to some listeners and then to others adds up their reports. The
second part starts from the world that the first one leaves. -/
theorem deliver_append {σ ℓ : Type} (call : ℓ → StateM σ Outcome)
    (onFailure : Fault → StateM σ Unit) (first second : List ℓ) (outside : σ) :
    (deliver call onFailure (first ++ second) : StateM σ Report) outside =
      let front : Report × σ := deliver call onFailure first outside
      let back : Report × σ := deliver call onFailure second front.2
      (⟨front.1.delivered + back.1.delivered, front.1.failed + back.1.failed⟩, back.2) := by
  induction first generalizing outside with
  | nil =>
    have start : (deliver call onFailure [] : StateM σ Report) outside = ({}, outside) := rfl
    simp only [List.nil_append, start, Nat.zero_add]
    rfl
  | cons listener rest inductionHypothesis =>
    simp only [List.cons_append, deliver_cons, inductionHypothesis]
    cases (call listener outside).1.fault? <;> simp only [Nat.add_right_comm]

namespace Registry

variable {κ σ ω ℓ μ : Type}

/-- A registry with another listener in the place of each, made from it and its
number, and another hook in the place of its own. Both may act on another
world. -/
def rewired (listen : Nat → ℓ → μ) (tell : (κ → Fault → σ → σ) → κ → Fault → ω → ω)
    (registry : Registry κ σ ℓ) : Registry κ ω μ where
  entries := registry.entries.map fun entry =>
    ⟨entry.kind, entry.id, listen entry.id entry.listener⟩
  nextId := registry.nextId
  hook := tell registry.hook

variable (listen : Nat → ℓ → μ) (tell : (κ → Fault → σ → σ) → κ → Fault → ω → ω)
  (registry : Registry κ σ ℓ)

/-- Subscribing and rewiring can be done in either order. The listener that
joins a rewired registry is the one made from the number that it is about to
get. -/
theorem rewired_subscribe (kind : κ) (listener : ℓ) :
    (registry.rewired listen tell).subscribe kind (listen registry.nextId listener) =
      ((registry.subscribe kind listener).1,
        (registry.subscribe kind listener).2.rewired listen tell) := by
  simp [subscribe, rewired]

variable [DecidableEq κ]

/-- Unsubscribing and rewiring can be done in either order, since a handle names
a subscription by its kind and number alone. -/
theorem rewired_unsubscribe (handle : Handle κ) :
    (registry.rewired listen tell).unsubscribe handle =
      ((registry.unsubscribe handle).1,
        (registry.unsubscribe handle).2.rewired listen tell) := by
  simp only [unsubscribe, rewired, List.any_map, List.filter_map]
  rfl

/-- The listeners of a kind are rewired one by one, in the order of
subscription. -/
theorem listeners_rewired (kind : κ) :
    (registry.rewired listen tell).listeners kind =
      (registry.entries.filter fun entry => entry.kind = kind).map fun entry =>
        listen entry.id entry.listener := by
  simp only [listeners, rewired, List.filter_map, List.map_map]
  rfl

/-- Rewiring leaves the number of listeners, because it keeps every kind. -/
theorem count_rewired (kind : κ) :
    (registry.rewired listen tell).count kind = registry.count kind := by
  rw [count, count, listeners_rewired, listeners, List.length_map, List.length_map]

end Registry

/-- What is written in a diary: a line for each call of a listener, by its
number, the payload and how the call ended, and some lines for what the hook is
told. -/
structure Diary (κ π τ : Type) where
  called : Nat → π → Outcome → τ
  hooked : κ → Fault → List τ

namespace Diary

variable {κ π σ τ : Type} (diary : Diary κ π τ)

/-- A listener that writes in a diary. -/
def listener (id : Nat) (listener : Listener π σ) : Listener π (σ × List τ) :=
  fun payload world =>
    let heard : Outcome × σ := listener payload world.1
    (heard.1, (heard.2, world.2 ++ [diary.called id payload heard.1]))

/-- A hook that writes in a diary. -/
def hook (hook : κ → Fault → σ → σ) (kind : κ) (fault : Fault) (world : σ × List τ) :
    σ × List τ :=
  (hook kind fault world.1, world.2 ++ diary.hooked kind fault)

/-- All that is written because of one call. -/
def lines (kind : κ) (payload : π) (heard : Nat × Outcome) : List τ :=
  diary.called heard.1 payload heard.2 :: heard.2.fault?.toList.flatMap (diary.hooked kind)

/-- Writing in a diary changes nothing about a dispatch, and the diary tells of
each listener once and in order. The induction follows the dispatch; after every
call the diary holds the lines of the calls so far. -/
theorem deliver_kept (hook : κ → Fault → σ → σ) (kind : κ) (payload : π)
    (entries : List (Entry κ (Listener π σ))) (outside : σ) (written : List τ) :
    let told : Report × σ := deliver (fun listener => listener payload)
      (fun fault => modify (hook kind fault)) (entries.map Entry.listener) outside
    ∃ heard : List (Nat × Outcome), heard.map Prod.fst = entries.map Entry.id ∧
      told.1.failed = heard.countP (fun call => call.2.fault?.isSome) ∧
      (deliver (fun listener => listener payload)
          (fun fault => modify (diary.hook hook kind fault))
          (entries.map fun entry => diary.listener entry.id entry.listener) :
            StateM (σ × List τ) Report) (outside, written) =
        (told.1, (told.2, written ++ heard.flatMap (diary.lines kind payload))) := by
  induction entries generalizing outside written with
  | nil => exact ⟨[], rfl, rfl, Prod.ext rfl (Prod.ext rfl (List.append_nil written).symm)⟩
  | cons entry rest inductionHypothesis =>
    simp only [List.map_cons, deliver_cons, listener]
    rcases entry.listener payload outside with ⟨outcome, after⟩
    cases ended : outcome.fault? with
    | none =>
      obtain ⟨heard, ids, failed, delivered⟩ :=
        inductionHypothesis after (written ++ [diary.called entry.id payload outcome])
      refine ⟨(entry.id, outcome) :: heard, by rw [List.map_cons, ids], ?_, ?_⟩
      · rw [List.countP_cons_of_neg (by simp [ended])]
        exact failed
      · simp only [delivered, List.flatMap_cons, lines, ended, Option.toList_none,
          List.flatMap_nil, List.append_assoc, List.singleton_append]
    | some fault =>
      obtain ⟨heard, ids, failed, delivered⟩ := inductionHypothesis (hook kind fault after)
        (written ++ [diary.called entry.id payload outcome] ++ diary.hooked kind fault)
      have told : ((modify (diary.hook hook kind fault) : StateM (σ × List τ) Unit)
            (after, written ++ [diary.called entry.id payload outcome])).2 =
          (hook kind fault after,
            written ++ [diary.called entry.id payload outcome] ++ diary.hooked kind fault) := rfl
      refine ⟨(entry.id, outcome) :: heard, by rw [List.map_cons, ids], ?_, ?_⟩
      · rw [List.countP_cons_of_pos (by simp [ended])]
        exact congrArg Nat.succ failed
      · have same : written ++ [diary.called entry.id payload outcome] ++ diary.hooked kind fault ++
              heard.flatMap (diary.lines kind payload) =
            written ++ ((entry.id, outcome) :: heard).flatMap (diary.lines kind payload) := by
          simp [lines, ended]
        simp only [told, delivered, same]
        rfl

/-- A registry whose listeners and whose hook write in a diary. -/
def kept (registry : Registry κ σ (Listener π σ)) :
    Registry κ (σ × List τ) (Listener π (σ × List τ)) :=
  registry.rewired diary.listener diary.hook

/-- A notification with a diary does what the plain one does. Each listener of
the kind stands in the diary once, in the order of subscription, with the
outcome of its call, and the report counts the failed ones. -/
theorem notify_kept [DecidableEq κ] (registry : Registry κ σ (Listener π σ)) (kind : κ)
    (payload : π) (outside : σ) (written : List τ) :
    let told : Report × σ := registry.notify kind payload outside
    ∃ heard : List (Nat × Outcome), heard.map Prod.fst = registry.ids kind ∧
      told.1.failed = heard.countP (fun call => call.2.fault?.isSome) ∧
      ((diary.kept registry).notify kind payload (outside, written) : Report × (σ × List τ)) =
        (told.1, (told.2, written ++ heard.flatMap (diary.lines kind payload))) := by
  intro told
  obtain ⟨heard, ids, failed, delivered⟩ := diary.deliver_kept registry.hook kind payload
    (registry.entries.filter fun entry => entry.kind = kind) outside written
  refine ⟨heard, ids, failed, ?_⟩
  rw [Registry.notify, kept, Registry.listeners_rewired]
  exact delivered

end Diary

end Telemetry.Observer
