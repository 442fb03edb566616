import Mathlib.Data.List.Nodup
import Telemetry.Observer.Registry

/-!
# The history of a registry

A registry keeps who is subscribed now and forgets how that came about. Its
history is the list of changes made to it, by whomever, each with the answer
that was given: the handle of a subscription, or whether an unsubscription has
removed anything.

From the history of a registry that started empty, all that it holds can be read
off. The numbers handed out increase, so no two subscriptions ever share one,
whatever their kinds. The subscriptions that are left are those that were made,
in the same order, less those whose handle was used with success; and a handle
succeeds when it is used for the first time and never again.
-/
namespace Telemetry.Observer

variable {κ σ ℓ : Type}

/-- The handle that was handed out for a subscription. -/
def Entry.handle (entry : Entry κ ℓ) : Handle κ := ⟨entry.kind, entry.id⟩

/-- A change to who is subscribed, with the answer that was given to it. -/
inductive Change (κ ℓ : Type) where
  | subscribed (entry : Entry κ ℓ)
  | unsubscribed (handle : Handle κ) (removed : Bool)

namespace Change

/-- The subscription that a change has made. -/
def entry? : Change κ ℓ → Option (Entry κ ℓ)
  | subscribed entry => some entry
  | unsubscribed _ _ => none

/-- The handle that a change has used, with or without success. -/
def used? : Change κ ℓ → Option (Handle κ)
  | subscribed _ => none
  | unsubscribed handle _ => some handle

/-- The handle that a change has used with success. -/
def released? : Change κ ℓ → Option (Handle κ)
  | subscribed _ => none
  | unsubscribed handle removed => if removed then some handle else none

/-- Make a change once more, whatever its answer will be. -/
def apply [DecidableEq κ] (registry : Registry κ σ ℓ) : Change κ ℓ → Registry κ σ ℓ
  | subscribed entry => (registry.subscribe entry.kind entry.listener).2
  | unsubscribed handle _ => (registry.unsubscribe handle).2

end Change

/-- The subscriptions that a history has made, in order. -/
def subscriptions (changes : List (Change κ ℓ)) : List (Entry κ ℓ) :=
  changes.filterMap Change.entry?

/-- The handles that a history has handed out. -/
def handedOut (changes : List (Change κ ℓ)) : List (Handle κ) :=
  (subscriptions changes).map Entry.handle

/-- The handles that a history has used. -/
def uses (changes : List (Change κ ℓ)) : List (Handle κ) := changes.filterMap Change.used?

/-- The handles that a history has used with success. -/
def releases (changes : List (Change κ ℓ)) : List (Handle κ) := changes.filterMap Change.released?

/-- No handle is used before it was handed out. -/
def Proper (changes : List (Change κ ℓ)) : Prop :=
  ∀ before handle removed after, changes = before ++ .unsubscribed handle removed :: after →
    handle ∈ handedOut before

/-- A proper history was proper all along: a use in its first part has the same
history before it as in the whole. -/
theorem Proper.of_append {changes further : List (Change κ ℓ)}
    (proper : Proper (changes ++ further)) : Proper changes := by
  intro before handle removed after split
  apply proper before handle removed (after ++ further)
  rw [split, List.append_assoc, List.cons_append]

/-- A handle that was used with success was used. A success is one of the two
answers to a use, and the other is left out. -/
theorem mem_uses_of_mem_releases {changes : List (Change κ ℓ)} {handle : Handle κ}
    (released : handle ∈ releases changes) : handle ∈ uses changes := by
  obtain ⟨change, member, same⟩ := List.mem_filterMap.mp released
  refine List.mem_filterMap.mpr ⟨change, member, ?_⟩
  cases change with
  | subscribed entry => cases same
  | unsubscribed other removed =>
    cases removed with
    | false => cases same
    | true => exact same

/-- A list with one more element at its end is cut there, or in what it was
before. So a statement about every place of a history is kept by a change if it
holds at the new place. -/
theorem cut_concat {α : Type} {elements before after : List α} {last element : α}
    (cut : elements ++ [last] = before ++ element :: after) :
    (elements = before ∧ last = element) ∨
      ∃ rest, elements = before ++ element :: rest := by
  rcases List.eq_nil_or_concat after with rfl | ⟨rest, final, rfl⟩
  · obtain ⟨same, sameLast⟩ := List.append_inj' cut rfl
    exact .inl ⟨same, (List.cons.inj sameLast).1⟩
  · rw [List.concat_eq_append, ← List.cons_append, ← List.append_assoc] at cut
    exact .inr ⟨rest, (List.append_inj' cut rfl).1⟩

section Registry

variable [DecidableEq κ] {registry : Registry κ σ ℓ}

/-- A handle names an entry exactly when it was handed out for it. It carries
the two fields by which entries are told apart. -/
theorem Handle.names_iff {handle : Handle κ} {entry : Entry κ ℓ} :
    handle.names entry = true ↔ entry.handle = handle := by
  cases handle
  simp [Handle.names, Entry.handle]

namespace Registry

/-- The subscriptions of a kind, in order. -/
def ofKind (registry : Registry κ σ ℓ) (kind : κ) : List (Entry κ ℓ) :=
  registry.entries.filter fun entry => entry.kind = kind

/-- Some changes, with these answers, lead from one registry to another. -/
inductive Becomes : Registry κ σ ℓ → List (Change κ ℓ) → Registry κ σ ℓ → Prop where
  | unchanged (registry : Registry κ σ ℓ) : Becomes registry [] registry
  | subscribed {registry after : Registry κ σ ℓ} {changes : List (Change κ ℓ)} (kind : κ)
      (listener : ℓ) (later : Becomes (registry.subscribe kind listener).2 changes after) :
      Becomes registry (.subscribed ⟨kind, registry.nextId, listener⟩ :: changes) after
  | unsubscribed {registry after : Registry κ σ ℓ} {changes : List (Change κ ℓ)}
      (handle : Handle κ) (later : Becomes (registry.unsubscribe handle).2 changes after) :
      Becomes registry (.unsubscribed handle (registry.unsubscribe handle).1 :: changes) after

namespace Becomes

variable {middle after : Registry κ σ ℓ} {changes further : List (Change κ ℓ)}

/-- Changes made one after another lead as far as both together. The induction
is on the first ones; the second are carried along unchanged. -/
theorem append (first : Becomes registry changes middle) (second : Becomes middle further after) :
    Becomes registry (changes ++ further) after := by
  induction first with
  | unchanged => exact second
  | subscribed kind listener _ inductionHypothesis =>
    exact .subscribed kind listener (inductionHypothesis second)
  | unsubscribed handle _ inductionHypothesis =>
    exact .unsubscribed handle (inductionHypothesis second)

/-- The changes alone determine where they lead, without the answers. An answer
is a function of the registry at that moment, which the earlier changes have
fixed. -/
theorem eq_foldl (became : Becomes registry changes after) :
    after = changes.foldl Change.apply registry := by
  induction became with
  | unchanged => rfl
  | subscribed kind listener _ inductionHypothesis => exact inductionHypothesis
  | unsubscribed handle _ inductionHypothesis => exact inductionHypothesis

/-- Nobody who comes or goes replaces the hook. Both kinds of change touch the
entries, and a subscription the next number as well. -/
theorem hook (became : Becomes registry changes after) : after.hook = registry.hook := by
  induction became with
  | unchanged => rfl
  | subscribed kind listener _ inductionHypothesis => exact inductionHypothesis
  | unsubscribed handle _ inductionHypothesis => exact inductionHypothesis

end Becomes

/-- A handle that names nothing changes nothing. Since no entry is named, the
filter that would take it out keeps every entry. -/
theorem unsubscribe_of_not_removed {handle : Handle κ}
    (kept : (registry.unsubscribe handle).1 = false) :
    (registry.unsubscribe handle).2 = registry := by
  have unnamed : ∀ entry ∈ registry.entries, (!handle.names entry) = true := by
    simpa [unsubscribe] using kept
  rw [unsubscribe, List.filter_eq_self.mpr unnamed]

/-- Using a handle leaves every other kind alone: a handle names entries of its
own kind only. -/
theorem ofKind_unsubscribe_of_ne {handle : Handle κ} {kind : κ} (other : kind ≠ handle.kind) :
    (registry.unsubscribe handle).2.ofKind kind = registry.ofKind kind := by
  simp only [ofKind, unsubscribe, List.filter_filter]
  refine List.filter_congr fun entry _ => ?_
  by_cases same : entry.kind = kind
  · have unnamed : handle.names entry = false := by
      simp [Handle.names, same, other]
    simp [same, unnamed]
  · simp [same]

end Registry

/-- What a registry that started empty owes to its history. -/
structure Chronicle (changes : List (Change κ ℓ)) (registry : Registry κ σ ℓ) : Prop where
  increasing : (subscriptions changes).Pairwise fun former latter => former.id < latter.id
  numbered : ∀ entry ∈ subscriptions changes, entry.id < registry.nextId
  released : ∀ handle ∈ releases changes, handle.id < registry.nextId
  entries : registry.entries =
    (subscriptions changes).filter fun entry => entry.handle ∉ releases changes
  spent : Proper changes → ∀ handle ∈ uses changes, handle ∈ releases changes
  answers : Proper changes → ∀ before handle removed after,
    changes = before ++ .unsubscribed handle removed :: after →
      (removed = true ↔ handle ∉ uses before)

namespace Chronicle

variable {changes : List (Change κ ℓ)}

/-- A registry that starts empty has an empty history, whatever its hook. There
is nothing yet to be ordered, numbered or released. -/
theorem empty (hook : κ → Fault → σ → σ) :
    Chronicle [] ({ hook := hook } : Registry κ σ ℓ) where
  increasing := .nil
  numbered := List.forall_mem_nil _
  released := List.forall_mem_nil _
  entries := rfl
  spent := fun _ => List.forall_mem_nil _
  answers := fun _ before _ _ _ split => by cases before <;> cases split

/-- Replacing the hook is no change of who is subscribed, and the history goes
on as it is. -/
theorem setHook (chronicle : Chronicle changes registry) (hook : κ → Fault → σ → σ) :
    Chronicle changes (registry.setHook hook) :=
  ⟨chronicle.increasing, chronicle.numbered, chronicle.released, chronicle.entries,
    chronicle.spent, chronicle.answers⟩

/-- A handle removes a subscription exactly when it was handed out and has not
done so before. What is left is what was made less what was released, so an
entry with this handle is among the rest. -/
theorem removes_iff (chronicle : Chronicle changes registry) (handle : Handle κ) :
    (registry.unsubscribe handle).1 = true ↔
      handle ∈ handedOut changes ∧ handle ∉ releases changes := by
  simp only [Registry.unsubscribe, List.any_eq_true, chronicle.entries, Handle.names_iff,
    List.mem_filter, decide_eq_true_eq, handedOut, List.mem_map]
  constructor
  · rintro ⟨entry, ⟨made, left⟩, rfl⟩
    exact ⟨⟨entry, made, rfl⟩, left⟩
  · rintro ⟨⟨entry, made, rfl⟩, left⟩
    exact ⟨entry, ⟨made, left⟩, rfl⟩

/-- A history goes on with a subscription. Its number is new, so it comes last
in the order and its handle has not been released; no earlier answer is
touched. -/
theorem subscribe (chronicle : Chronicle changes registry) (kind : κ) (listener : ℓ) :
    Chronicle (changes ++ [.subscribed ⟨kind, registry.nextId, listener⟩])
      (registry.subscribe kind listener).2 := by
  let new : Entry κ ℓ := ⟨kind, registry.nextId, listener⟩
  have made : subscriptions (changes ++ [.subscribed new]) = subscriptions changes ++ [new] := by
    rw [subscriptions, List.filterMap_append]
    rfl
  have sameReleases : releases (changes ++ [.subscribed new]) = releases changes := by
    rw [releases, List.filterMap_append]
    exact List.append_nil _
  have sameUses : uses (changes ++ [.subscribed new]) = uses changes := by
    rw [uses, List.filterMap_append]
    exact List.append_nil _
  have fresh : new.handle ∉ releases changes := fun spent =>
    Nat.lt_irrefl _ (chronicle.released new.handle spent)
  constructor
  · rw [made, List.pairwise_append]
    refine ⟨chronicle.increasing, List.pairwise_singleton _ _, ?_⟩
    intro former member latter last
    rw [List.mem_singleton.mp last]
    exact chronicle.numbered former member
  · intro entry member
    rw [made, List.mem_append, List.mem_singleton] at member
    rcases member with former | rfl
    · exact Nat.lt_succ_of_lt (chronicle.numbered entry former)
    · exact Nat.lt_succ_self _
  · intro handle spent
    rw [sameReleases] at spent
    exact Nat.lt_succ_of_lt (chronicle.released handle spent)
  · rw [made, sameReleases, List.filter_append, ← chronicle.entries]
    simp [Registry.subscribe, fresh, new]
  · intro proper
    rw [sameUses, sameReleases]
    exact chronicle.spent proper.of_append
  · intro proper before handle removed after split
    rcases cut_concat split with ⟨_, different⟩ | ⟨rest, former⟩
    · cases different
    · exact chronicle.answers proper.of_append before handle removed rest former

/-- A history goes on with the use of a handle, with or without success. A
success takes out the entry with this handle and no other. If the handle was
handed out, it is spent from now on: either this use removes its entry, or an
earlier one has. -/
theorem unsubscribe (chronicle : Chronicle changes registry) (handle : Handle κ) :
    Chronicle (changes ++ [.unsubscribed handle (registry.unsubscribe handle).1])
      (registry.unsubscribe handle).2 := by
  have removes := chronicle.removes_iff handle
  have left : (registry.unsubscribe handle).2.entries =
      registry.entries.filter fun entry => !handle.names entry := rfl
  have sameNumber : (registry.unsubscribe handle).2.nextId = registry.nextId := rfl
  generalize (registry.unsubscribe handle).1 = removed at removes
  have sameMade : subscriptions (changes ++ [.unsubscribed handle removed]) =
      subscriptions changes := by
    rw [subscriptions, List.filterMap_append]
    exact List.append_nil _
  have inReleases : ∀ other, other ∈ releases (changes ++ [.unsubscribed handle removed]) ↔
      other ∈ releases changes ∨ (other = handle ∧ removed = true) := by
    intro other
    cases removed <;> simp [releases, Change.released?]
  have inUses : ∀ other, other ∈ uses (changes ++ [.unsubscribed handle removed]) ↔
      other ∈ uses changes ∨ other = handle := by
    intro other
    simp [uses, Change.used?]
  constructor
  · rw [sameMade]
    exact chronicle.increasing
  · rw [sameMade, sameNumber]
    exact chronicle.numbered
  · intro other spent
    rw [sameNumber]
    rcases (inReleases other).mp spent with former | ⟨rfl, now⟩
    · exact chronicle.released other former
    · obtain ⟨entry, made, rfl⟩ := List.mem_map.mp (removes.mp now).1
      exact chronicle.numbered entry made
  · rw [left, sameMade, chronicle.entries, List.filter_filter]
    refine List.filter_congr fun entry made => ?_
    have named : entry.handle = handle → handle ∈ handedOut changes := fun same =>
      same ▸ List.mem_map.mpr ⟨entry, made, rfl⟩
    -- What is left and has this handle is what the handle has just removed.
    rw [Bool.eq_iff_iff]
    simp only [Bool.and_eq_true, Bool.not_eq_true', ← Bool.not_eq_true, Handle.names_iff,
      decide_eq_true_eq, inReleases]
    grind
  · intro proper other used
    rcases (inUses other).mp used with former | rfl
    · exact (inReleases other).mpr (.inl (chronicle.spent proper.of_append other former))
    · have known := proper changes other removed [] rfl
      by_cases before : other ∈ releases changes
      · exact (inReleases other).mpr (.inl before)
      · exact (inReleases other).mpr (.inr ⟨rfl, removes.mpr ⟨known, before⟩⟩)
  · intro proper before other answer after split
    rcases cut_concat split with ⟨rfl, same⟩ | ⟨rest, former⟩
    · cases same
      have known := proper changes handle removed [] rfl
      constructor
      · intro success used
        exact (removes.mp success).2 (chronicle.spent proper.of_append handle used)
      · intro unused
        exact removes.mpr ⟨known, fun spent => unused (mem_uses_of_mem_releases spent)⟩
    · exact chronicle.answers proper.of_append before other answer rest former

/-- A history goes on as the registry does. The induction is on the further
changes, and each of them is one of the two kinds for which this is known. -/
theorem becomes {after : Registry κ σ ℓ} {further : List (Change κ ℓ)}
    (chronicle : Chronicle changes registry) (became : registry.Becomes further after) :
    Chronicle (changes ++ further) after := by
  induction became generalizing changes with
  | unchanged => rwa [List.append_nil]
  | subscribed kind listener _ inductionHypothesis =>
    rw [List.append_cons]
    exact inductionHypothesis (chronicle.subscribe kind listener)
  | unsubscribed handle _ inductionHypothesis =>
    rw [List.append_cons]
    exact inductionHypothesis (chronicle.unsubscribe handle)

/-- No two subscriptions of a history share a number, also if one of them is
gone by now: the numbers increase in the order in which they were handed out. -/
theorem nodup (chronicle : Chronicle changes registry) :
    ((subscriptions changes).map Entry.id).Nodup := by
  rw [List.Nodup, List.pairwise_map]
  exact chronicle.increasing.imp fun before => Nat.ne_of_lt before

/-- The list of a kind is what was subscribed under it, less what was released.
It keeps the order of the subscriptions, because entries are only ever left
out. -/
theorem ofKind (chronicle : Chronicle changes registry) (kind : κ) :
    registry.ofKind kind =
      (subscriptions changes).filter fun entry =>
        entry.kind = kind ∧ entry.handle ∉ releases changes := by
  rw [Registry.ofKind, chronicle.entries, List.filter_filter]
  refine List.filter_congr fun entry _ => ?_
  simp

/-- A handle that removes something takes one subscription out of its kind: the
one for which it was handed out. The others of the kind have other numbers,
those before it lower ones and those behind it higher ones, so the handle names
none of them. -/
theorem ofKind_unsubscribe (chronicle : Chronicle changes registry) {handle : Handle κ}
    (removes : (registry.unsubscribe handle).1 = true) :
    ∃ front entry back, entry ∈ subscriptions changes ∧ entry.handle = handle ∧
      registry.ofKind handle.kind = front ++ entry :: back ∧
      (registry.unsubscribe handle).2.ofKind handle.kind = front ++ back := by
  obtain ⟨entry, member, named⟩ := List.any_eq_true.mp removes
  rw [Handle.names_iff] at named
  subst named
  have within : entry ∈ registry.ofKind entry.handle.kind :=
    List.mem_filter.mpr ⟨member, by simp [Entry.handle]⟩
  obtain ⟨front, back, split⟩ := List.append_of_mem within
  have made : entry ∈ subscriptions changes := by
    rw [chronicle.entries] at member
    exact List.mem_of_mem_filter member
  refine ⟨front, entry, back, made, rfl, split, ?_⟩
  have increasing : (front ++ entry :: back).Pairwise fun former latter =>
      former.id < latter.id := by
    rw [← split, Registry.ofKind, chronicle.entries]
    exact (chronicle.increasing.filter _).filter _
  have taken : (registry.unsubscribe entry.handle).2.ofKind entry.handle.kind =
      (registry.ofKind entry.handle.kind).filter fun other => !entry.handle.names other := by
    simp only [Registry.ofKind, Registry.unsubscribe, List.filter_filter, Bool.and_comm]
  obtain ⟨_, behind, before⟩ := List.pairwise_append.mp increasing
  obtain ⟨after, _⟩ := List.pairwise_cons.mp behind
  have kept : ∀ other : Entry κ ℓ, other.id ≠ entry.id →
      (!entry.handle.names other) = true := by
    intro other different
    simp [Handle.names, Entry.handle, different]
  rw [taken, split, List.filter_append, List.filter_cons_of_neg (by simp [Handle.names_iff]),
    List.filter_eq_self.mpr, List.filter_eq_self.mpr]
  · intro other member
    exact kept other (Nat.ne_of_gt (after other member))
  · intro other member
    exact kept other (Nat.ne_of_lt (before other member entry List.mem_cons_self))

end Chronicle

end Registry

end Telemetry.Observer
