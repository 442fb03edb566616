import Mathlib.Data.List.Nodup
import Telemetry.Observer.Registry

/-!
# Who is subscribed

Numbers of subscriptions are handed out once, in increasing order, and never
again. So a number names at most one subscription at any time, and a
subscription stays until its own handle is used, whoever else comes and goes.
-/
namespace Telemetry.Observer.Registry

variable {κ σ ℓ : Type} {registry : Registry κ σ ℓ}

/-- Every subscription has a number of its own, and the next number is new. -/
structure Numbered (registry : Registry κ σ ℓ) : Prop where
  distinct : (registry.entries.map Entry.id).Nodup
  issued : ∀ entry ∈ registry.entries, entry.id < registry.nextId

/-- Nothing is numbered at first, and the first number is free. This is the
start of every registry's life. -/
theorem numbered_empty : Numbered ({} : Registry κ σ ℓ) where
  distinct := List.nodup_nil
  issued := fun _ member => nomatch member

/-- A subscription takes the next number and moves it on. All numbers in use lie
below the next one, so the new one differs from each of them. -/
theorem numbered_subscribe (numbered : Numbered registry) (kind : κ) (listener : ℓ) :
    Numbered (registry.subscribe kind listener).2 := by
  constructor
  · rw [subscribe, List.map_append, List.map_singleton, ← List.concat_eq_append]
    refine List.Nodup.concat ?_ numbered.distinct
    intro member
    obtain ⟨entry, within, same⟩ := List.mem_map.mp member
    exact Nat.ne_of_lt (numbered.issued entry within) same
  · intro entry member
    simp only [subscribe, List.mem_append, List.mem_singleton] at member ⊢
    rcases member with former | rfl
    · have issued := numbered.issued entry former
      omega
    · exact Nat.lt_succ_self _

variable [DecidableEq κ]

/-- An unsubscription only leaves entries out. What holds of all of them holds
of fewer, and the next number does not go back. -/
theorem numbered_unsubscribe (numbered : Numbered registry) (handle : Handle κ) :
    Numbered (registry.unsubscribe handle).2 where
  distinct := (List.filter_sublist.map Entry.id).nodup numbered.distinct
  issued := fun entry member => numbered.issued entry (List.mem_of_mem_filter member)

/-- A handle names a subscription that is there. -/
def Subscribed (registry : Registry κ σ ℓ) (handle : Handle κ) : Prop :=
  ∃ entry ∈ registry.entries, handle.names entry = true

/-- Whoever comes does not displace anybody: a new subscription is put behind
the others. -/
theorem subscribed_subscribe {handle : Handle κ} (subscribed : Subscribed registry handle)
    (kind : κ) (listener : ℓ) : Subscribed (registry.subscribe kind listener).2 handle := by
  obtain ⟨entry, member, named⟩ := subscribed
  exact ⟨entry, List.mem_append_left _ member, named⟩

/-- Using one handle leaves what the others name. Two handles that name the same
entry agree in its kind and in its number, so they are the same handle. -/
theorem subscribed_unsubscribe {handle other : Handle κ} (subscribed : Subscribed registry handle)
    (apart : other ≠ handle) : Subscribed (registry.unsubscribe other).2 handle := by
  obtain ⟨entry, member, named⟩ := subscribed
  refine ⟨entry, List.mem_filter.mpr ⟨member, ?_⟩, named⟩
  rw [Bool.not_eq_true']
  by_contra both
  rw [Bool.not_eq_false] at both
  simp only [Handle.names, decide_eq_true_eq] at named both
  apply apart
  cases other
  cases handle
  simp only [Handle.mk.injEq]
  exact ⟨both.1.symm.trans named.1, both.2.symm.trans named.2⟩

/-- The numbers of the listeners of a kind, in the order of subscription. -/
def ids (registry : Registry κ σ ℓ) (kind : κ) : List Nat :=
  (registry.entries.filter fun entry => entry.kind = kind).map Entry.id

/-- No listener of a kind is called twice for one event. The numbers are
distinct over all kinds, and those of one kind are among them. -/
theorem ids_nodup (numbered : Numbered registry) (kind : κ) : (registry.ids kind).Nodup :=
  (List.filter_sublist.map Entry.id).nodup numbered.distinct

/-- A number is listed under a kind exactly when the handle with that kind and
number names a subscription, so that the lists and the handles tell the same
story. -/
theorem mem_ids_iff {kind : κ} {id : Nat} :
    id ∈ registry.ids kind ↔ Subscribed registry ⟨kind, id⟩ := by
  simp only [ids, Subscribed, Handle.names, List.mem_map, List.mem_filter, decide_eq_true_eq]
  constructor
  · rintro ⟨entry, ⟨member, same⟩, number⟩
    exact ⟨entry, member, same, number⟩
  · rintro ⟨entry, member, same, number⟩
    exact ⟨entry, ⟨member, same⟩, number⟩

/-- A number that is taken stands for one subscription, of one kind. It is
listed once under that kind, because no number repeats. Under another kind it is
not, because the entry would have to be a second one with the same number. -/
theorem count_ids {handle : Handle κ} (numbered : Numbered registry)
    (subscribed : Subscribed registry handle) (kind : κ) :
    (registry.ids kind).count handle.id = if kind = handle.kind then 1 else 0 := by
  rw [(ids_nodup numbered kind).count]
  congr 1
  rw [mem_ids_iff, eq_iff_iff]
  constructor
  · rintro ⟨other, present, taken⟩
    obtain ⟨entry, member, named⟩ := subscribed
    simp only [Handle.names, decide_eq_true_eq] at taken named
    have same : other = entry := List.inj_on_of_nodup_map numbered.distinct present member
      (taken.2.trans named.2.symm)
    rw [← taken.1, same, named.1]
  · rintro rfl
    exact subscribed

end Telemetry.Observer.Registry
