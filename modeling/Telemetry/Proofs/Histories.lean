/-!
# Histories of runs

A run is a list of calls made one after another on a state. Each call may hand
something out, and what it hands out can depend on the state it meets. The
history of a run lists these parts in order. Where each call adds its part to
something that the state shows, the state after the run shows the whole history.
-/
namespace Telemetry

universe u v w

/-- What the calls of a run hand out, in order. -/
def along {s : Type u} {c : Type v} {β : Type w} (perform : s → c → s) (part : s → c → List β) :
    List c → s → List β
  | [], _ => []
  | call :: rest, state => part state call ++ along perform part rest (perform state call)

/-- A run goes on from where the calls before it have led, so the history of a
run in two parts is the history of the one behind that of the other. -/
theorem along_append {s : Type u} {c : Type v} {β : Type w} (perform : s → c → s)
    (part : s → c → List β) (before after : List c) (state : s) :
    along perform part (before ++ after) state =
      along perform part before state ++ along perform part after (before.foldl perform state) := by
  induction before generalizing state with
  | nil => rfl
  | cons call rest inductionHypothesis =>
    rw [List.cons_append, along, along, inductionHypothesis, List.append_assoc, List.foldl_cons]

/-- Listing parts of what a run hands out is handing out those parts: it makes
no difference whether a call's share is taken apart at once or after the run. -/
theorem along_flatMap {s : Type u} {c : Type v} {β γ : Type w} (perform : s → c → s)
    {part : s → c → List β} {list : β → List γ} {listed : s → c → List γ}
    (same : ∀ state call, (part state call).flatMap list = listed state call) (calls : List c)
    (state : s) :
    (along perform part calls state).flatMap list = along perform listed calls state := by
  induction calls generalizing state with
  | nil => rfl
  | cons call rest inductionHypothesis =>
    rw [along, along, List.flatMap_append, same, inductionHypothesis]

/-- In particular, what a run hands out may be changed entry by entry at once or
afterwards. -/
theorem along_map {s : Type u} {c : Type v} {β γ : Type w} (perform : s → c → s)
    (part : s → c → List β) (change : β → γ) (calls : List c) (state : s) :
    (along perform part calls state).map change =
      along perform (fun state call => (part state call).map change) calls state := by
  simp only [List.map_eq_flatMap]
  exact along_flatMap perform (fun _ _ => rfl) calls state

/-- What holds of everything that a call hands out holds of all that a run hands
out, for each entry of a history was handed out by one of the calls. -/
theorem forall_mem_along {s : Type u} {c : Type v} {β : Type w} (perform : s → c → s)
    {part : s → c → List β} {Holds : β → Prop}
    (each : ∀ state call, ∀ entry ∈ part state call, Holds entry) (calls : List c) (state : s) :
    ∀ entry ∈ along perform part calls state, Holds entry := by
  induction calls generalizing state with
  | nil =>
    intro entry member
    exact absurd member List.not_mem_nil
  | cons call rest inductionHypothesis =>
    intro entry member
    rcases List.mem_append.mp member with here | later
    · exact each state call entry here
    · exact inductionHypothesis (perform state call) entry later

/-- What each call extends by its part, a run extends by its history. This takes
a fact about one call to a fact about all runs and is how most histories are
read off a state. -/
theorem shown_foldl {s : Type u} {c : Type v} {β : Type w} {perform : s → c → s}
    {part : s → c → List β} (shown : s → List β)
    (step : ∀ state call, shown (perform state call) = shown state ++ part state call)
    (calls : List c) (state : s) :
    shown (calls.foldl perform state) = shown state ++ along perform part calls state := by
  induction calls generalizing state with
  | nil => rw [along, List.append_nil, List.foldl_nil]
  | cons call rest inductionHypothesis =>
    rw [List.foldl_cons, inductionHypothesis, step, along, List.append_assoc]

/-- Where each call moves what the state shows by its part, a run moves it by
its history. The moves may need a condition of the state, so long as calls keep
it. -/
theorem view_foldl {s : Type u} {c : Type v} {β : Type w} {t : Type u} {perform : s → c → s}
    {part : s → c → List β} {move : t → β → t} (view : s → t) (Holds : s → Prop)
    (kept : ∀ state call, Holds state → Holds (perform state call))
    (moves : ∀ state call, Holds state →
      view (perform state call) = (part state call).foldl move (view state))
    (calls : List c) {state : s} (holds : Holds state) :
    view (calls.foldl perform state) =
      (along perform part calls state).foldl move (view state) := by
  induction calls generalizing state with
  | nil => rfl
  | cons call rest inductionHypothesis =>
    rw [List.foldl_cons, inductionHypothesis (kept state call holds), moves state call holds, along,
      List.foldl_append]

/-- What the calls then hand out is what their parts hand out: a state that is a
view of another sees a run of its own, and both keep the same history. -/
theorem along_along {s : Type u} {c : Type v} {β γ : Type w} {t : Type u} {perform : s → c → s}
    {part : s → c → List β} {move : t → β → t} (view : s → t) (Holds : s → Prop)
    {given : s → c → List γ} {handed : t → β → List γ}
    (kept : ∀ state call, Holds state → Holds (perform state call))
    (moves : ∀ state call, Holds state →
      view (perform state call) = (part state call).foldl move (view state))
    (gives : ∀ state call, Holds state →
      given state call = along move handed (part state call) (view state))
    (calls : List c) {state : s} (holds : Holds state) :
    along perform given calls state =
      along move handed (along perform part calls state) (view state) := by
  induction calls generalizing state with
  | nil => rfl
  | cons call rest inductionHypothesis =>
    rw [along, along, along_append, gives state call holds,
      inductionHypothesis (kept state call holds), moves state call holds]

end Telemetry
