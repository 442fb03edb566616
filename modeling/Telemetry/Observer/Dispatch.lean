import Telemetry.Observer.Registry

/-!
# Dispatch

A dispatch calls listeners one after another. A listener that fails or crashes
is reported to the hook before the next one is called, and stops none of them;
the dispatch itself cannot fail. What it was made of is counted in a `Report`.

`deliver` is stated for any monad in which listeners act. Plain listeners act on
the world outside only, and for them `Registry.notify` is the whole story: the
list of listeners is fixed before the first is called.
-/
namespace Telemetry.Observer

/-- How one call of a listener ended. -/
inductive Outcome where
  | handled
  | failed (fault : Fault)
  /-- The listener broke off, with or without a message. -/
  | crashed (message : Option String)

/-- What the hook is told, if anything. -/
def Outcome.fault? : Outcome → Option Fault
  | handled => none
  | failed fault => some fault
  | crashed message => some (.listenerCrashed message)

/-- How many calls went well, and how many did not. -/
structure Report where
  delivered : Nat := 0
  failed : Nat := 0
deriving DecidableEq, Repr

/-- Call every listener in turn, telling of each failure at once. -/
def deliver {m : Type → Type} [Monad m] {ℓ : Type} (call : ℓ → m Outcome)
    (onFailure : Fault → m Unit) : List ℓ → m Report
  | [] => pure {}
  | listener :: rest => do
    let outcome ← call listener
    match outcome.fault? with
    | none =>
      let report ← deliver call onFailure rest
      pure { report with delivered := report.delivered + 1 }
    | some fault =>
      onFailure fault
      let report ← deliver call onFailure rest
      pure { report with failed := report.failed + 1 }

/-- A listener that acts on the world outside only. -/
abbrev Listener (π σ : Type) := π → StateM σ Outcome

/-- Call the listeners of a kind with a payload. -/
def Registry.notify {κ π σ : Type} [DecidableEq κ] (registry : Registry κ σ (Listener π σ))
    (kind : κ) (payload : π) : StateM σ Report :=
  deliver (fun listener => listener payload)
    (fun fault => modify (registry.hook kind fault)) (registry.listeners kind)

end Telemetry.Observer
