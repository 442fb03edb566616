import Telemetry.Proofs.DrivenRuns

/-!
# Draws are matched to channels without loss or shift

A list of draws is repeated for ever and keeps its own position, while each tick
goes through the channels of its store. The two never lose step: a tick takes as
many draws as there are channels, one for each in their order, and nothing else
takes any. So the number of draws taken so far tells the position, and with `k`
channels the channel at place `i` is moved in tick `t` by draw number `t * k +
i`, whatever else was asked between the ticks and however much of it was
refused.

What a store, or the store of a simulator, has gone through is the list of the
requests that it has accepted. Two runs that accepted the same, with the same
list of draws, have the same readings.
-/
namespace Telemetry

namespace Cycle

/-- The draw with a number, counted from the start of the list and around it:
none of an empty list, which stands for zero. -/
def factor (factors : List Float) (number : Nat) : Float :=
  factors[number % factors.length]?.getD 0

/-- A list from which so many draws have been taken. -/
def after (factors : List Float) (drawn : Nat) : Cycle :=
  ⟨factors, if factors.isEmpty then 0 else drawn % factors.length⟩

/-- Before any draw a list stands at its start, empty or not. -/
theorem after_zero (factors : List Float) : after factors 0 = ⟨factors, 0⟩ := by
  rw [after, Nat.zero_mod, ite_self]

/-- The position stays inside the list, being what is left of the number of
draws when whole rounds are taken off. -/
theorem position_after_lt {factors : List Float} (nonempty : factors ≠ []) (drawn : Nat) :
    (after factors drawn).position < factors.length := by
  have positive : 0 < factors.length := List.length_pos_iff.mpr nonempty
  rw [after, if_neg (by simpa using nonempty)]
  exact Nat.mod_lt _ positive

/-- The next draw is the one whose number is the number of draws taken. At the
end of the list the position goes back to its start, as the remainder does. -/
theorem draw_after (factors : List Float) (drawn : Nat) :
    (after factors drawn).draw = (factor factors drawn, after factors (drawn + 1)) := by
  cases factors with
  | nil => rfl
  | cons first rest =>
    have inside := position_after_lt (List.cons_ne_nil first rest) drawn
    have next : (drawn % (first :: rest).length + 1) % (first :: rest).length =
        (drawn + 1) % (first :: rest).length := Nat.mod_add_mod _ _ _
    simp only [after, List.isEmpty_cons, Bool.false_eq_true, ↓reduceIte] at inside ⊢
    simp only [draw, factor, List.getElem?_eq_getElem inside, next, Option.getD_some]

/-- The channels after a tick that begins when so many draws have been taken:
each is moved by the draw whose number is its own place further. -/
def applied (factors : List Float) (drawn : Nat) (channels : List Channel) : List Channel :=
  channels.mapIdx fun i channel => channel.step (factor factors (drawn + i))

end Cycle

namespace Store

/-- A walk gives each channel its own draw, and leaves the source behind the
last of them. -/
theorem walk_after (factors : List Float) (channels : List Channel) (drawn : Nat) :
    walk channels (Cycle.after factors drawn) =
      (Cycle.applied factors drawn channels,
        Cycle.after factors (drawn + channels.length)) := by
  unfold Cycle.applied
  induction channels generalizing drawn with
  | nil => rfl
  | cons channel rest inductionHypothesis =>
    have drew : Source.draw (Cycle.after factors drawn) = _ := Cycle.draw_after factors drawn
    simp only [walk, drew, inductionHypothesis, List.mapIdx_cons, List.length_cons, Nat.add_zero,
      Nat.add_assoc, Nat.add_comm 1]

/-- What is asked of a store. A tick takes its draws from the source that goes
with the store. -/
inductive Request where
  | register (spec : ChannelSpec)
  | tick
  | setValue (name : String) (value : Float)

/-- Whether a request is for a tick. -/
def Request.isTick : Request → Bool
  | .tick => true
  | _ => false

section Requests

variable {ρ : Type} [Source ρ]

/-- The store and its source after a request, refused or not. -/
def serve (state : Store × ρ) : Request → Store × ρ
  | .register spec => (standing state.1 (state.1.register spec), state.2)
  | .tick => state.1.tick state.2
  | .setValue name value => (standing state.1 ((state.1.setValue name value).map Prod.snd), state.2)

/-- The store and its source after requests made one after another. -/
def serveAll (requests : List Request) (state : Store × ρ) : Store × ρ :=
  requests.foldl serve state

/-- The request itself, unless it is refused. -/
def accepted (state : Store × ρ) : Request → List Request
  | .register spec => if (state.1.register spec).isOk then [.register spec] else []
  | .tick => [.tick]
  | .setValue name value =>
    if (state.1.setValue name value).isOk then [.setValue name value] else []

/-- The snapshot that a tick returns. -/
def pictures (state : Store × ρ) : Request → List Snapshot
  | .tick => [(state.1.tick state.2).1.snapshot]
  | _ => []

/-- A refused request changes nothing and returns nothing, so that only accepted
ones have to be looked at. -/
theorem serve_accepted (state : Store × ρ) (request : Request) :
    serve state request = (accepted state request).foldl serve state ∧
      pictures state request = along serve pictures (accepted state request) state := by
  cases request with
  | register spec =>
    cases outcome : state.1.register spec <;>
      simp [accepted, serve, pictures, along, outcome]
  | tick => exact ⟨rfl, rfl⟩
  | setValue name value =>
    cases outcome : state.1.setValue name value <;>
      simp [accepted, serve, pictures, along, outcome, Except.map]

/-- Requests lead where those of them lead that are accepted. What was accepted
is a list of requests itself, and served anew it is accepted again. -/
theorem serveAll_accepted (requests : List Request) (state : Store × ρ) :
    serveAll requests state = serveAll (along serve accepted requests state) state ∧
      along serve pictures requests state =
        along serve pictures (along serve accepted requests state) state :=
  ⟨view_foldl id (fun _ => True) (fun _ _ => id)
      (fun state request _ => (serve_accepted state request).1) requests trivial,
    along_along id (fun _ => True) (fun _ _ => id)
      (fun state request _ => (serve_accepted state request).1)
      (fun state request _ => (serve_accepted state request).2) requests trivial⟩

end Requests

/-- A tick takes as many draws as there are channels. -/
theorem serve_tick (store : Store) (factors : List Float) (drawn : Nat) :
    serve (store, Cycle.after factors drawn) .tick =
      ((store.tick (Cycle.after factors drawn)).1, Cycle.after factors (drawn + store.size)) := by
  simp only [serve, tick, walk_after, size, Array.length_toList]

/-- Whatever is asked, the source is the list after some number of draws. The
number depends on the channels there were at each tick. -/
theorem exists_drawn (requests : List Request) (store : Store) (factors : List Float)
    (drawn : Nat) :
    ∃ total, (serveAll requests (store, Cycle.after factors drawn)).2 =
      Cycle.after factors total := by
  induction requests generalizing store drawn with
  | nil => exact ⟨drawn, rfl⟩
  | cons request rest inductionHypothesis =>
    rw [serveAll, List.foldl_cons]
    cases request with
    | register spec => exact inductionHypothesis _ drawn
    | tick =>
      rw [serve_tick]
      exact inductionHypothesis _ _
    | setValue name value => exact inductionHypothesis _ drawn

/-- An override neither adds nor loses a channel, refused or not. -/
theorem size_setValue (store : Store) (name : String) (value : Float) :
    (standing store ((store.setValue name value).map Prod.snd)).size = store.size := by
  cases outcome : store.setValue name value with
  | error fault => rfl
  | ok result =>
    have names := congrArg List.length (names_setValue outcome).1
    simpa [size, Store.names, Except.map] using names

/-- Where no channel is registered, each tick takes the draws of all channels,
and nothing else takes any. -/
theorem serveAll_after {made : List Request} (unregistered : ∀ spec, .register spec ∉ made)
    (store : Store) (factors : List Float) (drawn : Nat) :
    (serveAll made (store, Cycle.after factors drawn)).2 =
      Cycle.after factors (drawn + made.countP Request.isTick * store.size) := by
  induction made generalizing store drawn with
  | nil => simp [serveAll]
  | cons request rest inductionHypothesis =>
    have later : ∀ spec, .register spec ∉ rest := fun spec member =>
      unregistered spec (List.mem_cons_of_mem _ member)
    rw [serveAll, List.foldl_cons]
    cases request with
    | register spec => exact absurd List.mem_cons_self (unregistered spec)
    | tick =>
      have total : drawn + (rest.countP Request.isTick + 1) * store.size =
          drawn + store.size + rest.countP Request.isTick * store.size := by
        rw [Nat.succ_mul]
        omega
      have taken := inductionHypothesis later (store.tick (Cycle.after factors drawn)).1
        (drawn + store.size)
      rw [size_tick] at taken
      rw [serve_tick, List.countP_cons_of_pos rfl, total]
      exact taken
    | setValue name value =>
      rw [List.countP_cons_of_neg Bool.false_ne_true, ← size_setValue store name value]
      exact inductionHypothesis later _ _

/-- So the next tick moves each channel by the draw that is its own, counted
from the draws that the ticks before have taken. -/
theorem channels_tick_after {made : List Request} (unregistered : ∀ spec, .register spec ∉ made)
    (store : Store) (factors : List Float) :
    let state := serveAll made (store, Cycle.after factors 0)
    (state.1.tick state.2).1.channels.toList =
      Cycle.applied factors (made.countP Request.isTick * store.size) state.1.channels.toList := by
  intro state
  have source : state.2 = _ := serveAll_after unregistered store factors 0
  simp only [tick, source, walk_after, Nat.zero_add]

/-- The position of a list that is used from its start stays inside the list,
because it is that after some number of draws. -/
theorem position_serveAll_lt {factors : List Float} (nonempty : factors ≠ [])
    (requests : List Request) (store : Store) :
    (serveAll requests (store, (⟨factors, 0⟩ : Cycle))).2.position < factors.length := by
  rw [← Cycle.after_zero]
  obtain ⟨total, source⟩ := exists_drawn requests store factors 0
  rw [source]
  exact Cycle.position_after_lt nonempty total

/-- How the draws of a list are matched to the channels of a store, whatever is
asked of it. The position stays inside the list. As long as no channel is added,
the next tick applies to each channel the draw that is its own, counted by the
ticks and the channels before it. What was accepted determines the readings and
the snapshots returned. -/
structure Matched (start : Store × Cycle) (requests : List Request) : Prop where
  inside : start.2.factors ≠ [] →
    (serveAll requests start).2.position < start.2.factors.length
  moved : (∀ spec, .register spec ∉ along serve accepted requests start) →
    ((serveAll requests start).1.tick (serveAll requests start).2).1.channels.toList =
      Cycle.applied start.2.factors
        ((along serve accepted requests start).countP Request.isTick * start.1.size)
        (serveAll requests start).1.channels.toList
  determined : ∀ others,
    along serve accepted others start = along serve accepted requests start →
      (serveAll others start).1.snapshot = (serveAll requests start).1.snapshot ∧
        along serve pictures others start = along serve pictures requests start

/-- A list that is at its start is matched to the channels of every store.
Refused requests do nothing, so all follows from what the accepted ones do. -/
theorem matched (factors : List Float) (store : Store) (requests : List Request) :
    Matched (store, ⟨factors, 0⟩) requests := by
  obtain ⟨reached, shown⟩ := serveAll_accepted requests (store, (⟨factors, 0⟩ : Cycle))
  constructor
  · exact fun nonempty => position_serveAll_lt nonempty requests store
  · intro unregistered
    have moved := channels_tick_after unregistered store factors
    rw [Cycle.after_zero, ← reached] at moved
    exact moved
  · intro others same
    obtain ⟨otherReached, otherShown⟩ := serveAll_accepted others (store, (⟨factors, 0⟩ : Cycle))
    rw [same] at otherReached otherShown
    exact ⟨by rw [otherReached, ← reached], otherShown.trans shown.symm⟩

end Store

namespace Simulator

variable {σ : Type}

/-- Whether a call is a step. -/
def Call.isStep : Call σ → Bool
  | @Call.step _ _ _ _ => true
  | _ => false

/-- What a call other than a step asks of the store, unless it is refused. -/
def requested (state : Simulator σ × σ) : Call σ → List Store.Request
  | .registerChannel spec =>
    if (state.1.registerChannel spec).isOk then [.register spec] else []
  | .setValue name value =>
    if settles state (.setValue name value) then [.setValue name value] else []
  | _ => []

/-- A call other than a step does to the store what its request does. It takes
no draw and returns no snapshot. -/
theorem store_perform {ρ : Type} [Source ρ] {state : Simulator σ × σ}
    (reachable : state.1.store.Reachable) {call : Call σ} (still : call.isStep = false)
    (source : ρ) :
    ((perform state call).1.store, source) =
        (requested state call).foldl Store.serve (state.1.store, source) ∧
      along Store.serve Store.pictures (requested state call) (state.1.store, source) = [] := by
  cases call with
  | registerChannel spec =>
    cases outcome : state.1.store.register spec <;>
      simp [perform, requested, registerChannel, outcome, Store.serve, Store.pictures, along]
  | registerDerivation name dependsOn compute =>
    simp only [perform, standing_registerDerivation]
    split <;> exact ⟨rfl, rfl⟩
  | registerRule rule =>
    simp only [perform, standing_registerRule]
    split <;> exact ⟨rfl, rfl⟩
  | step source => cases still
  | setValue name value =>
    have whole := Session.setValue_on (⟨state.1, (), state.2⟩ : Session σ Unit) reachable.indexed
      name value
    cases checked : state.1.checkInputs with
    | error fault =>
      rw [checked] at whole
      simp [perform, left, requested, settles, whole, along]
    | ok =>
      rw [checked] at whole
      cases written : state.1.store.setValue name value <;> rw [written] at whole <;>
        simp [perform, left, requested, settles, whole, written, Session.overridden, Store.serve,
          Store.pictures, Except.map, along]
  | raiseAlert name message severity =>
    simp [perform, left, requested, Session.raiseAlert_on, along]
  | clearAlert name =>
    simp only [perform, clearAlert]
    split <;> exact ⟨rfl, rfl⟩
  | engine _ | subscribe _ _ | unsubscribe _ | setHook _ | notify _ _ => exact ⟨rfl, rfl⟩

end Simulator

namespace Session

variable {σ ρ : Type} [Source ρ]

/-- A call on a session. A step takes its draws from the session's own source,
and no other call moves the channels. -/
inductive Call (σ : Type) : Type 1 where
  | step
  | beside (call : Simulator.Call σ) (still : call.isStep = false)

/-- The session after a call, refused or not. -/
def perform (session : Session σ ρ) : Call σ → Session σ ρ
  | .step => (step.on session).2
  | .beside call _ =>
    let after := Simulator.perform (session.simulator, session.outside) call
    ⟨after.1, session.source, after.2⟩

/-- The session after calls made one after another. -/
def run (calls : List (Call σ)) (session : Session σ ρ) : Session σ ρ :=
  calls.foldl perform session

/-- What a call asks of the store, unless it is refused. -/
def accepted (session : Session σ ρ) : Call σ → List Store.Request
  | .step => if (step.on session).1.isOk then [.tick] else []
  | .beside call _ => Simulator.requested (session.simulator, session.outside) call

/-- The snapshot that a step reports, unless it is refused. -/
def pictures (session : Session σ ρ) : Call σ → List Snapshot
  | .step => (step.on session).1.toOption.toList.map TickReport.snapshot
  | .beside _ _ => []

/-- The store of a session with its source. -/
def walked (session : Session σ ρ) : Store × ρ := (session.simulator.store, session.source)

/-- A call does to the store and the source what the request does that it makes,
and nothing if it makes none. -/
theorem walked_perform {session : Session σ ρ} (reachable : session.simulator.store.Reachable)
    (call : Call σ) :
    (session.perform call).walked = (session.accepted call).foldl Store.serve session.walked ∧
      session.pictures call = along Store.serve Store.pictures (session.accepted call)
        session.walked := by
  cases call with
  | step =>
    have whole := step_on session reachable.indexed
    cases checked : session.simulator.checkInputs with
    | error fault =>
      rw [checked] at whole
      simp [perform, accepted, pictures, whole, Except.toOption, along]
    | ok =>
      rw [checked] at whole
      simp [perform, accepted, pictures, whole, Except.toOption, along, walked, stepped,
        Store.serve, Store.pictures]
  | beside call still =>
    have before : (session.simulator, session.outside).1.store.Reachable := reachable
    obtain ⟨asked, silent⟩ := Simulator.store_perform before still session.source
    exact ⟨asked, silent.symm⟩

/-- A call on a session leaves its store one that calls of a store can reach. -/
theorem reachable_perform {session : Session σ ρ} (reachable : session.simulator.store.Reachable)
    (call : Call σ) : (session.perform call).simulator.store.Reachable := by
  have before : (session.simulator, session.outside).1.store.Reachable := reachable
  cases call with
  | step => exact Simulator.reachable_perform before (.step session.source)
  | beside call still => exact Simulator.reachable_perform before call

/-- And so does a run of them. -/
theorem reachable_run {session : Session σ ρ} (reachable : session.simulator.store.Reachable)
    (calls : List (Call σ)) : (run calls session).simulator.store.Reachable := by
  induction calls generalizing session with
  | nil => exact reachable
  | cons call rest inductionHypothesis =>
    exact inductionHypothesis (reachable_perform reachable call)

/-- A run does to the store and the source what its accepted requests do, and
reports the snapshots that these return. -/
theorem walked_run {session : Session σ ρ} (reachable : session.simulator.store.Reachable)
    (calls : List (Call σ)) :
    (run calls session).walked =
        Store.serveAll (along perform accepted calls session) session.walked ∧
      along perform pictures calls session =
        along Store.serve Store.pictures (along perform accepted calls session) session.walked := by
  constructor
  · exact view_foldl walked (fun session => session.simulator.store.Reachable)
      (fun _ call held => reachable_perform held call)
      (fun _ call held => (walked_perform held call).1) calls reachable
  · exact along_along walked (fun session => session.simulator.store.Reachable)
      (fun _ call held => reachable_perform held call)
      (fun _ call held => (walked_perform held call).1)
      (fun _ call held => (walked_perform held call).2) calls reachable

/-- A successful step is the tick of the store, with the draws of the session's
own source. -/
theorem walked_step {session : Session σ ρ} (reachable : session.simulator.store.Reachable)
    (succeeds : (step.on session).1.isOk = true) :
    (step.on session).2.walked = session.simulator.store.tick session.source := by
  obtain ⟨moved, _⟩ := walked_perform reachable .step
  rw [accepted, if_pos succeeds] at moved
  exact moved

/-- How the draws of a list are matched to the channels of a session's store,
whatever is called. The position stays inside the list. As long as no channel is
added, the next step that succeeds applies to each channel the draw that is its
own. What was accepted determines the readings and the snapshots reported, also
for a session with other listeners in another world. -/
structure Matched (τ : Type) (start : Session σ Cycle) (calls : List (Call σ)) : Prop where
  inside : start.source.factors ≠ [] →
    (run calls start).source.position < start.source.factors.length
  moved : (∀ spec, .register spec ∉ along perform accepted calls start) →
    (step.on (run calls start)).1.isOk = true →
      (step.on (run calls start)).2.simulator.store.channels.toList =
        Cycle.applied start.source.factors
          ((along perform accepted calls start).countP Store.Request.isTick *
            start.simulator.store.size)
          (run calls start).simulator.store.channels.toList
  determined : ∀ (second : Session τ Cycle) (others : List (Call τ)),
    second.walked = start.walked →
    along perform accepted others second = along perform accepted calls start →
      (run others second).simulator.snapshot = (run calls start).simulator.snapshot ∧
        along perform pictures others second = along perform pictures calls start

/-- A list that is at its start is matched to the channels of every session that
can be reached. A run of the session is a run of its store by the accepted
requests, so the store's own matching carries over. -/
theorem matched (τ : Type) (factors : List Float) {simulator : Simulator σ}
    (reachable : simulator.store.Reachable) (outside : σ) (calls : List (Call σ)) :
    Matched τ ⟨simulator, ⟨factors, 0⟩, outside⟩ calls := by
  let start : Session σ Cycle := ⟨simulator, ⟨factors, 0⟩, outside⟩
  have started : start.simulator.store.Reachable := reachable
  obtain ⟨reached, shown⟩ := walked_run started calls
  constructor
  · intro nonempty
    have source : (run calls start).source = _ := congrArg Prod.snd reached
    rw [source]
    exact Store.position_serveAll_lt nonempty _ simulator.store
  · intro unregistered succeeds
    have ticked := congrArg Prod.fst (walked_step (reachable_run started calls) succeeds)
    have moved := Store.channels_tick_after unregistered simulator.store factors
    have there : (run calls start).walked = Store.serveAll (along perform accepted calls start)
        (simulator.store, Cycle.after factors 0) := by
      rw [Cycle.after_zero]
      exact reached
    rw [← there] at moved
    exact (congrArg (fun store : Store => store.channels.toList) ticked).trans moved
  · intro second others sameStart same
    have sameStore : second.simulator.store = simulator.store := congrArg Prod.fst sameStart
    obtain ⟨otherReached, otherShown⟩ := walked_run (sameStore ▸ reachable) others
    rw [same, sameStart] at otherReached otherShown
    have sameEnd := congrArg Prod.fst (otherReached.trans reached.symm)
    exact ⟨congrArg Store.snapshot sameEnd, otherShown.trans shown.symm⟩

end Session

/-- With a list of draws that is used for all ticks, whatever else is asked of a
store or of a simulator and whatever of it is refused: the position stays inside
the list, and as long as no channel is added, the tick after `t` others moves
the channel at place `i` by draw number `t * k + i`, where `k` is the number of
channels. So two runs in which the same registrations, ticks and overrides were
accepted in the same order have the same snapshots.

The position is known from the number of draws taken, which is known from the
ticks and the channels. A simulator is followed through the requests that its
store has accepted. -/
theorem draws_matched {σ τ : Type} (factors : List Float) :
    (∀ (store : Store) (requests : List Store.Request),
      Store.Matched (store, ⟨factors, 0⟩) requests) ∧
    ∀ (simulator : Simulator σ) (outside : σ) (calls : List (Session.Call σ)),
      simulator.store.Reachable → Session.Matched τ ⟨simulator, ⟨factors, 0⟩, outside⟩ calls := by
  constructor
  · exact Store.matched factors
  · intro simulator outside calls reachable
    exact Session.matched τ factors reachable outside calls

/-- Two channels and three draws. An override by no number and a channel without
a name are refused between the ticks and take no draw. After two ticks four
draws are taken, so the next one moves the channels by the second and the third,
and the run with the ticks alone has the same readings. -/
theorem draws_matched_two_ovens :
    let left : ChannelSpec := ⟨"left", 20, 0, 300, 5⟩
    let right : ChannelSpec := ⟨"right", 30, 0, 300, 5⟩
    let store := Store.run [.register left, .register right] {}
    let start : Session Unit Cycle := ⟨{ store := store }, ⟨[1, -1, 0.5], 0⟩, ()⟩
    let calls : List (Session.Call Unit) :=
      [.step, .beside (.setValue "left" (0 / 0)) rfl,
        .beside (.registerChannel ⟨"", 0, 0, 0, 0⟩) rfl, .step]
    let session := Session.run calls start
    let stepped := Session.step.on session
    along Session.perform Session.accepted calls start = [.tick, .tick] ∧
      stepped.1.isOk = true ∧ session.source.position < 3 ∧
      stepped.2.simulator.store.channels.toList =
        Cycle.applied [1, -1, 0.5] 4 session.simulator.store.channels.toList ∧
      stepped.2.simulator.store.channels.toList.map Channel.value = [22.5, 32.5] ∧
      (Session.run [.step, .step] start).simulator.snapshot = session.simulator.snapshot := by
  intro left right store start calls session stepped
  let first : Store :=
    { channels := #[.ofSpec left], index := ({} : Std.HashMap _ _).insert "left" 0 }
  let both : Store :=
    { channels := #[.ofSpec left, .ofSpec right], index := first.index.insert "right" 1 }
  have registered : Store.register {} left = .ok first :=
    Store.register_eq_ok_iff.mpr
      ⟨ChannelSpec.check_eq_ok_iff.mpr (by decide +kernel), by simp [Store.contains], rfl⟩
  have registeredToo : first.register right = .ok both :=
    Store.register_eq_ok_iff.mpr ⟨ChannelSpec.check_eq_ok_iff.mpr (by decide +kernel),
      by simp [Store.contains, first, right], rfl⟩
  have ready : store = both := by
    simp [store, Store.run, Store.perform, registered, registeredToo]
  have reachable : store.Reachable := ⟨_, rfl⟩
  have prepared : start = ⟨{ store := both }, ⟨[1, -1, 0.5], 0⟩, ()⟩ := by
    simp only [start, ready]
  -- A list of ticks is known by its length.
  have onlyTicks : ∀ made : List Store.Request, made.map Store.Request.isTick = [true, true] →
      made = [.tick, .tick] := by
    intro made ticks
    rcases made with _ | ⟨_ | _ | _, _ | ⟨_ | _ | _, _ | _⟩⟩ <;>
      simp [Store.Request.isTick] at ticks ⊢
  have made : along Session.perform Session.accepted calls start = [.tick, .tick] := by
    apply onlyTicks
    rw [prepared]
    decide +kernel
  have plain : along Session.perform Session.accepted [.step, .step] start = [.tick, .tick] := by
    apply onlyTicks
    rw [prepared]
    decide +kernel
  have succeeds : (Session.step.on (Session.run calls start)).1.isOk = true := by
    rw [prepared]
    decide +kernel
  have values : (Session.step.on (Session.run calls start)).2.simulator.store.channels.toList.map
      Channel.value = [22.5, 32.5] := by
    rw [prepared]
    decide +kernel
  have size : start.simulator.store.size = 2 := by
    rw [prepared]
    decide +kernel
  have matched : Session.Matched Unit start calls :=
    (draws_matched [1, -1, 0.5]).2 { store := store } () calls reachable
  have moved := matched.moved (by simp [made]) succeeds
  have taken : ([.tick, .tick] : List Store.Request).countP Store.Request.isTick * 2 = 4 := rfl
  rw [made, size, taken] at moved
  have inside := matched.inside (List.cons_ne_nil _ _)
  have long : start.source.factors.length = 3 := rfl
  rw [long] at inside
  have same := (matched.determined start [.step, .step] rfl (plain.trans made.symm)).1
  simp only [stepped, session]
  exact ⟨made, succeeds, inside, moved, values, same⟩

end Telemetry
