import Telemetry.Fault

/-!
# Computations that may be refused

Registrations and overrides are sequences of checks followed by one change. The
rules below run such a sequence as far as its outcomes are known: a fault ends
it, a success hands its value on. They are all that later modules need to know
about the sequencing itself.

A refused call yields no new state, so its caller goes on with the former one;
`standing` says so for every kind of state.
-/
namespace Telemetry

variable {α β : Type}

/-- A fault ends a sequence: what was to follow is not run, whatever it is. -/
@[simp] theorem error_bind (fault : Fault) (next : α → Except Fault β) :
    (Except.error fault >>= next) = .error fault := rfl

/-- A success hands its value on, and the rest of the sequence decides. -/
@[simp] theorem ok_bind (value : α) (next : α → Except Fault β) :
    (Except.ok value >>= next) = next value := rfl

/-- Refusing by an exception is being refused. The two spellings meet in the
unfolded definitions, and only the second is kept. -/
@[simp] theorem throw_eq_error (fault : Fault) :
    (throw fault : Except Fault α) = .error fault := rfl

/-- Returning a value without a check is a success. This is the other end of a
sequence. -/
@[simp] theorem pure_eq_ok (value : α) : (pure value : Except Fault α) = .ok value := rfl

/-- A success counts as accepted, whatever its value. -/
@[simp] theorem isOk_ok (value : α) : (Except.ok value : Except Fault α).isOk = true := rfl

/-- A refusal does not count as accepted, whatever its fault. -/
@[simp] theorem isOk_error (fault : Fault) : (.error fault : Except Fault α).isOk = false := rfl

/-- A sequence succeeds exactly when each of its parts does. With this, an
accepted call is taken apart into the checks it has passed and the values they
gave. -/
theorem bind_eq_ok_iff {attempt : Except Fault α} {next : α → Except Fault β} {result : β} :
    (attempt >>= next) = .ok result ↔ ∃ value, attempt = .ok value ∧ next value = .ok result := by
  cases attempt <;> simp

/-- A part of a result is there exactly when the result is, and it is the part
of that result. -/
theorem map_eq_ok_iff {attempt : Except Fault α} {part : α → β} {result : β} :
    attempt.map part = .ok result ↔ ∃ value, attempt = .ok value ∧ part value = result := by
  cases attempt <;> simp [Except.map]

/-- Taking a part of a result does not touch a refusal: the fault is the same,
and none is added. -/
theorem map_eq_error_iff {attempt : Except Fault α} {part : α → β} {fault : Fault} :
    attempt.map part = .error fault ↔ attempt = .error fault := by
  cases attempt <;> simp [Except.map]

/-- Behind a guard, a sequence succeeds exactly when the guard lets it pass and
the rest succeeds. Every check of a registration has this form. -/
theorem guarded_eq_ok_iff {refused : Prop} [Decidable refused] {fault : Fault}
    {rest : Except Fault α} {result : α} :
    (if refused then .error fault else rest) = .ok result ↔ ¬ refused ∧ rest = .ok result := by
  by_cases held : refused <;> simp [held]

/-- Checks made one after another pass exactly when each of them does. The first
that fails ends the list, so success of the whole says something about every
element. -/
theorem forM_eq_ok_iff {check : α → Except Fault Unit} {elements : List α} :
    elements.forM check = .ok () ↔ ∀ element ∈ elements, check element = .ok () := by
  induction elements with
  | nil => simp
  | cons first rest inductionHypothesis =>
    have sequence : (first :: rest).forM check = (check first >>= fun _ => rest.forM check) := rfl
    rw [sequence, bind_eq_ok_iff, List.forall_mem_cons, ← inductionHypothesis]
    constructor
    · rintro ⟨_, passed, later⟩
      exact ⟨passed, later⟩
    · rintro ⟨passed, later⟩
      exact ⟨(), passed, later⟩

/-- Checks of all elements, followed by something else: the whole succeeds
exactly when each check and the rest do. The checks give no value on which the
rest could depend. -/
theorem forM_bind_eq_ok_iff {check : α → Except Fault Unit} {elements : List α}
    {next : Unit → Except Fault β} {result : β} :
    (elements.forM check >>= next) = .ok result ↔
      (∀ element ∈ elements, check element = .ok ()) ∧ next () = .ok result := by
  rw [bind_eq_ok_iff, ← forM_eq_ok_iff]
  constructor
  · rintro ⟨_, passed, rest⟩
    exact ⟨passed, rest⟩
  · rintro ⟨passed, rest⟩
    exact ⟨(), passed, rest⟩

/-- Exactly the finite numbers pass. The quantity that is named in the fault has
no part in this. -/
theorem ensureFinite_eq_ok_iff {quantity : Quantity} {value : Float} :
    ensureFinite quantity value = .ok () ↔ value.isFinite = true := by
  unfold ensureFinite
  by_cases finite : value.isFinite = true <;> simp [finite]

/-- A check for a finite number in front of a sequence adds one condition to its
success, and nothing else. -/
theorem ensureFinite_bind_eq_ok_iff {quantity : Quantity} {value : Float}
    {next : Unit → Except Fault β} {result : β} :
    (ensureFinite quantity value >>= next) = .ok result ↔
      value.isFinite = true ∧ next () = .ok result := by
  rw [bind_eq_ok_iff, ← ensureFinite_eq_ok_iff]
  constructor
  · rintro ⟨_, passed, rest⟩
    exact ⟨passed, rest⟩
  · rintro ⟨passed, rest⟩
    exact ⟨(), passed, rest⟩

/-- The state after a call that may be refused: a refusal leaves the former
one. -/
def standing (former : α) : Except Fault α → α
  | .ok latter => latter
  | .error _ => former

/-- A call that is accepted leads to its result. -/
@[simp] theorem standing_ok (former latter : α) : standing former (.ok latter) = latter := rfl

/-- A call that is refused leads nowhere: the former state stands, whatever the
fault. -/
@[simp] theorem standing_error (former : α) (fault : Fault) :
    standing former (.error fault) = former := rfl

end Telemetry
