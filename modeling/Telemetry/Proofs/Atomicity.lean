import Telemetry.Proofs.SimulatorRuns

/-!
# A step happens whole or not at all

Readings move before deriving and watching, and either of these can refuse. A
step is nevertheless refused only by the check that comes first, and so is an
override, apart from what the store refuses before it writes.

The check asks the store's index, while deriving and watching ask the snapshot
that the channels give. Both know the same names in every store that can be
reached. The check passes exactly when no derivation and no rule reads an
unregistered channel, which registrations made on the engine itself may bring
about at any time.

A refused attempt hands back the session it was given. The session holds
everything: the simulator, the source of the draws, and the world that listeners
and hooks act on, all three of any type. A source that counts its draws has
counted none, and a listener that writes down its calls has written none.
-/
namespace Telemetry

/-- Whether carrying an attempt out ends in a fault. -/
def Attempt.Refused {s α : Type} (attempt : Attempt s α) (state : s) : Prop :=
  ∃ fault, (attempt.on state).1 = .error fault

namespace Simulator

variable {σ : Type}

/-- Some derivation declares, or some rule watches, a channel that is not
registered. -/
def Dangling (simulator : Simulator σ) : Prop :=
  (∃ derivation ∈ simulator.engine.derivations, ∃ channel ∈ derivation.dependsOn,
      channel ∉ simulator.store.names) ∨
    ∃ rule ∈ simulator.engine.rules, rule.channel ∉ simulator.store.names

/-- The check passes exactly when nothing dangles. It asks the index of the
store, which knows the names of the channels and no others. -/
theorem checkInputs_eq_ok_iff_not_dangling {simulator : Simulator σ}
    (indexed : simulator.store.Indexed) :
    simulator.checkInputs = .ok () ↔ ¬ simulator.Dangling := by
  rw [checkInputs, Engine.checkInputs_eq_ok_iff, Engine.missingDependency?_eq_none_iff,
    Engine.missingRuleChannel?_eq_none_iff]
  simp [Store.contains_iff indexed, Dangling, Engine.rules]

end Simulator

namespace Session

variable {σ ρ : Type} {session : Session σ ρ}

/-- A step is refused exactly when something dangles, for the check is the only
part of it that can refuse. -/
theorem step_refused_iff [Source ρ] (indexed : session.simulator.store.Indexed) :
    step.Refused session ↔ session.simulator.Dangling := by
  rw [← not_iff_not, ← Simulator.checkInputs_eq_ok_iff_not_dangling indexed, Attempt.Refused,
    step_on session indexed]
  cases session.simulator.checkInputs <;> simp

/-- A refused step leaves the session it was given: it was refused before a
reading moved, a number was drawn or a listener called. -/
theorem step_kept [Source ρ] (indexed : session.simulator.store.Indexed)
    (refused : step.Refused session) : (step.on session).2 = session := by
  obtain ⟨fault, refused⟩ := refused
  rw [step_on session indexed] at refused ⊢
  cases checked : session.simulator.checkInputs with
  | error fault => rfl
  | ok => simp [checked] at refused

/-- An override is refused exactly when something dangles or the store refuses
it, which it does for a number that is not finite and for a name it does not
have. -/
theorem setValue_refused_iff (indexed : session.simulator.store.Indexed) (name : String)
    (value : Float) :
    (setValue name value).Refused session ↔
      session.simulator.Dangling ∨ value.isFinite = false ∨
        name ∉ session.simulator.store.names := by
  have accepted : ¬ (setValue name value).Refused session ↔
      session.simulator.checkInputs = .ok () ∧
        (session.simulator.store.setValue name value).isOk = true := by
    rw [Attempt.Refused, setValue_on session indexed]
    cases session.simulator.checkInputs with
    | error fault => simp
    | ok => cases session.simulator.store.setValue name value <;> simp
  rw [← not_iff_not, accepted, Simulator.checkInputs_eq_ok_iff_not_dangling indexed,
    Store.isOk_setValue_iff indexed]
  simp

/-- A refused override leaves the session it was given. Both of its refusals
come before the store is written. -/
theorem setValue_kept (indexed : session.simulator.store.Indexed) {name : String} {value : Float}
    (refused : (setValue name value).Refused session) :
    ((setValue name value).on session).2 = session := by
  obtain ⟨fault, refused⟩ := refused
  rw [setValue_on session indexed] at refused ⊢
  cases checked : session.simulator.checkInputs with
  | error fault => rfl
  | ok =>
    cases written : session.simulator.store.setValue name value with
    | error fault => rfl
    | ok result => simp [checked, written] at refused

end Session

namespace Simulator

variable {σ ρ : Type} {simulator : Simulator σ}

/-- Once the check has passed, nothing that a step does after moving the
readings is refused: moving them changes no name, and the check was about
names. -/
theorem no_late_refusal_of_step [Source ρ] (indexed : simulator.store.Indexed)
    (checked : simulator.checkInputs = .ok ()) (source : ρ) :
    ∃ metrics engine,
      simulator.engine.recompute (simulator.store.tick source).1.snapshot = .ok (metrics, engine) ∧
        ∃ transitions final,
          engine.watch (simulator.store.tick source).1.snapshot = .ok (transitions, final) := by
  have names := Store.names_tick simulator.store source
  have index := Store.index_tick simulator.store source
  exact ⟨_, _, recompute_of_checked indexed checked names index, _, _,
    watch_of_checked indexed checked names index _⟩

/-- Nor is anything that an override does after writing, since writing a value
changes no name either. -/
theorem no_late_refusal_of_override (indexed : simulator.store.Indexed)
    (checked : simulator.checkInputs = .ok ()) {name : String} {value stored : Float}
    {store : Store} (written : simulator.store.setValue name value = .ok (stored, store)) :
    ∃ transitions final, simulator.engine.watch store.snapshot = .ok (transitions, final) := by
  obtain ⟨names, index⟩ := Store.names_setValue written
  exact ⟨_, _, watch_of_checked indexed checked names index simulator.engine.derivations⟩

/-- Wherever a run of calls has led, a step and an override are refused exactly
when something dangles or, for an override, when the store cannot take the
value. A refusal leaves simulator, source and outside world as they were, and
none comes from the parts that follow the first change.

A reachable store is indexed, so the names that the check asks for are those
that the snapshot has afterwards; nothing between the two changes a name. -/
theorem all_or_nothing [Source ρ] (calls : List (Call σ)) (outside : σ) (source : ρ)
    (name : String) (value : Float) :
    let state := run calls ({}, outside)
    let session : Session σ ρ := ⟨state.1, source, state.2⟩
    let ticked := (state.1.store.tick source).1
    ((Session.step.Refused session ↔ state.1.Dangling) ∧
      (Session.step.Refused session → (Session.step.on session).2 = session) ∧
      (state.1.checkInputs = .ok () →
        ∃ metrics engine, state.1.engine.recompute ticked.snapshot = .ok (metrics, engine) ∧
          ∃ transitions final, engine.watch ticked.snapshot = .ok (transitions, final))) ∧
    ((Session.setValue name value).Refused session ↔
      state.1.Dangling ∨ value.isFinite = false ∨ name ∉ state.1.store.names) ∧
    ((Session.setValue name value).Refused session →
      ((Session.setValue name value).on session).2 = session) ∧
    (state.1.checkInputs = .ok () →
      ∀ stored store, state.1.store.setValue name value = .ok (stored, store) →
        ∃ transitions final, state.1.engine.watch store.snapshot = .ok (transitions, final)) := by
  intro state session ticked
  have indexed : session.simulator.store.Indexed := (reachable_start calls outside).indexed
  refine ⟨⟨Session.step_refused_iff indexed, Session.step_kept indexed, ?_⟩,
    Session.setValue_refused_iff indexed name value, Session.setValue_kept indexed, ?_⟩
  · intro checked
    exact no_late_refusal_of_step indexed checked source
  · intro checked stored store written
    exact no_late_refusal_of_override indexed checked written

end Simulator

end Telemetry
