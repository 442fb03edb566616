import Telemetry.Observer.Dispatch

/-!
# Listeners that act on their own registry

While it is being called, a listener may subscribe and unsubscribe, count, and
notify on the very registry that is calling it. What such a listener does is a
`Reaction`: a tree of requests, each with what to do upon the answer. A hub
joins a registry of these listeners with the world outside.

The listeners of a dispatch are taken from the registry before the first is
called, so requests made during the dispatch change the registry for later
dispatches and not the one under way. A nested dispatch starts from the registry
as it stands at that moment. How deep dispatches nest is bounded by a budget;
when it is used up there is no answer, so a finished answer never hides a cut.
-/
namespace Telemetry.Observer

/-- What a listener does when called, over kinds `κ`, payloads `π` and an
outside world `σ`. -/
inductive Reaction (κ π σ : Type) : Type where
  | finish (outcome : Outcome)
  | change (update : σ → σ) (next : Reaction κ π σ)
  | consult (next : σ → Reaction κ π σ)
  | subscribe (kind : κ) (listener : π → Reaction κ π σ) (next : Handle κ → Reaction κ π σ)
  | unsubscribe (handle : Handle κ) (next : Bool → Reaction κ π σ)
  | count (kind : κ) (next : Nat → Reaction κ π σ)
  | notify (kind : κ) (payload : π) (next : Report → Reaction κ π σ)

/-- A registry of reacting listeners and the world outside. -/
structure Hub (κ π σ : Type) where
  registry : Registry κ σ (π → Reaction κ π σ)
  outside : σ

namespace Hub

variable {κ π σ : Type}

/-- Subscribe a listener. -/
def subscribe (hub : Hub κ π σ) (kind : κ) (listener : π → Reaction κ π σ) :
    Handle κ × Hub κ π σ :=
  let (handle, registry) := hub.registry.subscribe kind listener
  (handle, { hub with registry := registry })

variable [DecidableEq κ]

/-- Remove a listener. -/
def unsubscribe (hub : Hub κ π σ) (handle : Handle κ) : Bool × Hub κ π σ :=
  let (removed, registry) := hub.registry.unsubscribe handle
  (removed, { hub with registry := registry })

end Hub

/-- Carry out a reaction, given what a nested dispatch does. -/
def Reaction.run {κ π σ : Type} [DecidableEq κ]
    (nested : κ → π → StateT (Hub κ π σ) Option Report) :
    Reaction κ π σ → StateT (Hub κ π σ) Option Outcome
  | finish outcome => pure outcome
  | change update next => do
    modify fun hub => { hub with outside := update hub.outside }
    next.run nested
  | consult next => do
    let hub ← get
    (next hub.outside).run nested
  | subscribe kind listener next => do
    let (handle, hub) := (← get).subscribe kind listener
    set hub
    (next handle).run nested
  | unsubscribe handle next => do
    let (removed, hub) := (← get).unsubscribe handle
    set hub
    (next removed).run nested
  | count kind next => do
    let hub ← get
    (next (hub.registry.count kind)).run nested
  | notify kind payload next => do
    let report ← nested kind payload
    (next report).run nested

/-- Call the listeners of a kind, with dispatches nested less than `budget`
deep. -/
def Hub.notify {κ π σ : Type} [DecidableEq κ] (budget : Nat) (kind : κ) (payload : π) :
    StateT (Hub κ π σ) Option Report :=
  match budget with
  | 0 => fun _ => none
  | deeper + 1 => do
    let hub ← get
    deliver (fun listener => (listener payload).run (Hub.notify deeper))
      (fun fault => modify fun hub =>
        { hub with outside := hub.registry.hook kind fault hub.outside })
      (hub.registry.listeners kind)

end Telemetry.Observer
