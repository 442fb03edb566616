import Telemetry.Fault

/-!
# Registries of listeners

Listeners are kept under a kind of event, in the order in which they subscribed.
Every subscription gets a number of its own, counted from one across all kinds,
and a handle made of the kind and that number. Unsubscribing takes out what the
handle names and nothing else; a handle that names nothing, because it was used
before or comes from another registry, changes nothing.

The registry says nothing about what a listener is. It also carries the hook
that is told of failures, as a change to the world outside that listeners write
to.
-/
namespace Telemetry.Observer

/-- What `subscribe` hands out. -/
structure Handle (κ : Type) where
  kind : κ
  id : Nat
deriving DecidableEq, Repr

/-- One subscription. -/
structure Entry (κ ℓ : Type) where
  kind : κ
  id : Nat
  listener : ℓ

/-- Whether a subscription is the one that a handle names. -/
def Handle.names {κ ℓ : Type} [DecidableEq κ] (handle : Handle κ) (entry : Entry κ ℓ) : Bool :=
  decide (entry.kind = handle.kind ∧ entry.id = handle.id)

/-- The subscriptions in order, the next number, and the failure hook. -/
structure Registry (κ σ ℓ : Type) where
  entries : List (Entry κ ℓ) := []
  nextId : Nat := 1
  /-- Told of every failure; does nothing until it is replaced. -/
  hook : κ → Fault → σ → σ := fun _ _ outside => outside

namespace Registry

variable {κ σ ℓ : Type}

/-- Replace the failure hook. -/
def setHook (registry : Registry κ σ ℓ) (hook : κ → Fault → σ → σ) : Registry κ σ ℓ :=
  { registry with hook := hook }

/-- Add a listener at the end of its kind. -/
def subscribe (registry : Registry κ σ ℓ) (kind : κ) (listener : ℓ) :
    Handle κ × Registry κ σ ℓ :=
  (⟨kind, registry.nextId⟩,
    { registry with
      entries := registry.entries ++ [⟨kind, registry.nextId, listener⟩]
      nextId := registry.nextId + 1 })

variable [DecidableEq κ]

/-- Remove a listener. The answer is whether there was one to remove. -/
def unsubscribe (registry : Registry κ σ ℓ) (handle : Handle κ) : Bool × Registry κ σ ℓ :=
  (registry.entries.any handle.names,
    { registry with entries := registry.entries.filter fun entry => !handle.names entry })

/-- The listeners of a kind, in the order of subscription. -/
def listeners (registry : Registry κ σ ℓ) (kind : κ) : List ℓ :=
  (registry.entries.filter fun entry => entry.kind = kind).map Entry.listener

/-- How many listeners a kind has. -/
def count (registry : Registry κ σ ℓ) (kind : κ) : Nat := (registry.listeners kind).length

end Registry

end Telemetry.Observer
