import Mathlib.Data.ENat.Lattice
import Telemetry.Proofs.ConfigAcceptance
import Telemetry.Proofs.Tallies
import Telemetry.Schedule

/-!
# A driven run makes the steps that it reports

A run makes a timer and is then driven by signals, of which there is no end: a
tick falls due, or a shutdown is requested. Only a period of zero leaves it
without a timer, and then it breaks off before the first signal. Otherwise, how
it ends is settled by the signals and the limit alone. With a limit it ends
after that many ticks, unless a shutdown comes before the last of them is due;
without a limit it ends at the first shutdown, if there is one.

The steps of an application that was brought up from a configuration are never
refused. So the run makes one step for each tick that it counts. All that could
keep another count agrees with it: the clock of the store, the draws taken from
the source, and the ticks counted on the board, as long as nobody who listens
touches these.
-/
namespace Telemetry

/-- The number of ticks before the first shutdown. -/
noncomputable def ticksBefore (signals : Nat → Signal) : ℕ∞ :=
  open Classical in
  if requested : ∃ moment, signals moment = .shutdown then (Nat.find requested : Nat) else ⊤

/-- A signal that is not a shutdown is a tick. -/
theorem Signal.eq_tick_iff {signal : Signal} : signal = .tick ↔ signal ≠ .shutdown := by
  cases signal <;> simp

section Signals

variable {signals : Nat → Signal}

/-- So many ticks come before the first shutdown exactly when none of the first
signals is one. -/
theorem le_ticksBefore_iff {ticks : Nat} :
    (ticks : ℕ∞) ≤ ticksBefore signals ↔ ∀ moment < ticks, signals moment = .tick := by
  unfold ticksBefore
  by_cases requested : ∃ moment, signals moment = .shutdown
  · rw [dif_pos requested, Nat.cast_le, Nat.le_find_iff]
    simp only [Signal.eq_tick_iff, ne_eq]
  · rw [dif_neg requested]
    simp only [le_top, true_iff, Signal.eq_tick_iff]
    exact fun moment _ shutdown => requested ⟨moment, shutdown⟩

/-- The first shutdown comes after so many ticks exactly when it is the next
signal and no signal before it is one. -/
theorem ticksBefore_eq_iff {ticks : Nat} :
    ticksBefore signals = ticks ↔
      signals ticks = .shutdown ∧ ∀ moment < ticks, signals moment = .tick := by
  unfold ticksBefore
  by_cases requested : ∃ moment, signals moment = .shutdown
  · rw [dif_pos requested, Nat.cast_inj, Nat.find_eq_iff]
    simp only [Signal.eq_tick_iff, ne_eq]
  · rw [dif_neg requested]
    simp only [ENat.top_ne_natCast, false_iff, not_and]
    exact fun shutdown => absurd ⟨ticks, shutdown⟩ requested

/-- The first signals. -/
def firstSignals (signals : Nat → Signal) (count : Nat) : List Signal :=
  (List.range count).map signals

/-- As long as only ticks fall due, the first signals are ticks. -/
theorem firstSignals_of_ticks {count : Nat} (due : ∀ moment < count, signals moment = .tick) :
    firstSignals signals count = List.replicate count .tick := by
  rw [List.eq_replicate_iff]
  refine ⟨by simp [firstSignals], ?_⟩
  intro signal member
  obtain ⟨moment, within, rfl⟩ := List.mem_map.mp member
  exact due moment (List.mem_range.mp within)

/-- More signals continue those before, so what has been settled by the first
ones is not unsettled by looking further. -/
theorem firstSignals_continue (signals : Nat → Signal) {count more : Nat} (longer : count ≤ more) :
    ∃ rest, firstSignals signals more = firstSignals signals count ++ rest := by
  obtain ⟨further, rfl⟩ := Nat.exists_eq_add_of_le longer
  exact ⟨_, by rw [firstSignals, List.range_add, List.map_append, firstSignals]⟩

/-- One signal more stands at the end. -/
theorem firstSignals_succ (count : Nat) :
    firstSignals signals (count + 1) = firstSignals signals count ++ [signals count] := by
  rw [firstSignals, List.range_succ, List.map_append]
  rfl

end Signals

/-- How a run with a limit has to end, given its signals. The limit counts also
when a shutdown is requested at the very moment at which it is reached. -/
def Summary.Due (limit : Option Nat) (signals : Nat → Signal) : Summary → Prop
  | ⟨ticks, .maxTicks⟩ => limit = some ticks ∧ ticks ≤ ticksBefore signals
  | ⟨ticks, .shutdown⟩ =>
    ticksBefore signals = ticks ∧ ∀ most, limit = some most → ticks < most

/-- The number of signals after which a run is over. A shutdown is a signal more
than the ticks that were made; at the limit a run stops without waiting for
one. -/
def Summary.settling : Summary → Nat
  | ⟨ticks, .maxTicks⟩ => ticks
  | ⟨ticks, .shutdown⟩ => ticks + 1

/-- With a limit, a run has to end. Either as many ticks come before the first
shutdown, or the shutdown comes before and is the end. -/
theorem Summary.exists_due_of_limit {limit : Option Nat} (limited : limit.isSome = true)
    (signals : Nat → Signal) : ∃ summary, Due limit signals summary := by
  obtain ⟨most, rfl⟩ := Option.isSome_iff_exists.mp limited
  by_cases reached : (most : ℕ∞) ≤ ticksBefore signals
  · exact ⟨⟨most, .maxTicks⟩, rfl, reached⟩
  · obtain ⟨ticks, same⟩ := ENat.ne_top_iff_exists.mp (not_le.mp reached).ne_top
    refine ⟨⟨ticks, .shutdown⟩, same.symm, ?_⟩
    rintro _ ⟨⟩
    rw [← same, Nat.cast_le] at reached
    exact Nat.lt_of_not_le reached

namespace Phase

/-- How many ticks a run has made. -/
def ticks : Phase → Nat
  | .waiting ticks => ticks
  | .over summary => summary.ticks

/-- A run on paper, with steps that do nothing. -/
def onPaper (limit : Option Nat) (phase : Phase) (signals : List Signal) : Phase :=
  Id.run (run limit (pure ()) phase signals)

variable {limit : Option Nat}

/-- Whether a run is over or goes on waiting, it has made its ticks. -/
theorem ticks_after (ticks : Nat) : (after limit ticks).ticks = ticks := by
  unfold after
  split <;> rfl

/-- What the steps do has no influence on how a run goes, as long as none is
refused, and each tick that is counted has made its step. -/
theorem run_on (limit : Option Nat) {s : Type} {step : Attempt s Unit} {state : Nat → s}
    (made : ∀ ticks, step.on (state ticks) = (.ok (), state (ticks + 1))) (phase : Phase)
    (signals : List Signal) :
    (run limit step phase signals).on (state phase.ticks) =
      (.ok (onPaper limit phase signals), state (onPaper limit phase signals).ticks) := by
  induction signals generalizing phase with
  | nil => rfl
  | cons signal rest inductionHypothesis =>
    rw [run, Attempt.on_bind]
    rcases phase with ticks | summary
    · cases signal with
      | shutdown => exact inductionHypothesis (.over ⟨ticks, .shutdown⟩)
      | tick =>
        have later := inductionHypothesis (after limit (ticks + 1))
        rw [ticks_after] at later
        have stepped : step.on (state (waiting ticks).ticks) = _ := made ticks
        simp only [advance, Attempt.on_bind, stepped, Attempt.on_pure]
        exact later
    · exact inductionHypothesis (.over summary)

/-- A run that is over stays over, and does not react to signals. -/
theorem onPaper_over (summary : Summary) (signals : List Signal) :
    onPaper limit (.over summary) signals = .over summary := by
  induction signals with
  | nil => rfl
  | cons signal rest inductionHypothesis => exact inductionHypothesis

/-- A run reacts to more signals from where the signals before have left it. -/
theorem onPaper_append (phase : Phase) (first second : List Signal) :
    onPaper limit phase (first ++ second) = onPaper limit (onPaper limit phase first) second := by
  induction first generalizing phase with
  | nil => rfl
  | cons signal rest inductionHypothesis => exact inductionHypothesis _

/-- Short of the limit, a run goes on waiting, and without a limit it always
does. -/
theorem after_of_lt {ticks : Nat} (short : ∀ most, limit = some most → ticks < most) :
    after limit ticks = .waiting ticks := by
  rw [after, if_neg]
  rw [Option.any_eq_true]
  rintro ⟨most, rfl, reached⟩
  have below := short most rfl
  simp only [decide_eq_true_eq] at reached
  omega

/-- Up to the limit, every tick counts. The induction adds one tick at the end,
and before it the limit was not reached. -/
theorem onPaper_ticks (count : Nat) (within : ∀ most, limit = some most → count ≤ most) :
    onPaper limit (after limit 0) (List.replicate count .tick) = after limit count := by
  induction count with
  | zero => rfl
  | succ count inductionHypothesis =>
    have short : ∀ most, limit = some most → count < most := within
    rw [List.replicate_succ', onPaper_append,
      inductionHypothesis fun most limited => (short most limited).le, after_of_lt short]
    rfl

/-- Short of the limit and before the first shutdown, a run on paper has counted
every signal as a tick. -/
theorem onPaper_waiting {signals : Nat → Signal} {count : Nat}
    (ticking : count ≤ ticksBefore signals) (short : ∀ most, limit = some most → count < most) :
    onPaper limit (after limit 0) (firstSignals signals count) = .waiting count := by
  rw [firstSignals_of_ticks (le_ticksBefore_iff.mp ticking),
    onPaper_ticks _ fun most limited => (short most limited).le, after_of_lt short]

/-- A run on paper does not end before it has to: the signals before the one
that settles it are ticks and fewer than the limit. -/
theorem onPaper_early {signals : Nat → Signal} {summary : Summary}
    (due : summary.Due limit signals) {count : Nat} (early : count < summary.settling) :
    onPaper limit (after limit 0) (firstSignals signals count) = .waiting count := by
  obtain ⟨ticks, stopped⟩ := summary
  cases stopped with
  | maxTicks =>
    obtain ⟨rfl, reached⟩ := due
    have below : count < ticks := early
    refine onPaper_waiting ((Nat.cast_le.mpr below.le).trans reached) ?_
    rintro _ ⟨⟩
    exact below
  | shutdown =>
    obtain ⟨first, short⟩ := due
    have within : count ≤ ticks := Nat.le_of_lt_succ early
    refine onPaper_waiting (first ▸ Nat.cast_le.mpr within) ?_
    exact fun most limited => within.trans_lt (short most limited)

/-- A run on paper ends as it has to, however many signals follow those that
settle it. -/
theorem onPaper_due {signals : Nat → Signal} {summary : Summary}
    (due : summary.Due limit signals) {count : Nat} (enough : summary.settling ≤ count) :
    onPaper limit (after limit 0) (firstSignals signals count) = .over summary := by
  obtain ⟨ticks, stopped⟩ := summary
  cases stopped with
  | maxTicks =>
    obtain ⟨limited, reached⟩ := due
    have enough : ticks ≤ count := enough
    obtain ⟨rest, split⟩ := firstSignals_continue signals enough
    rw [split, onPaper_append, firstSignals_of_ticks (le_ticksBefore_iff.mp reached),
      onPaper_ticks _ (by simp [limited])]
    have stops : after limit ticks = .over ⟨ticks, .maxTicks⟩ := by
      rw [after, if_pos (by simp [limited])]
    rw [stops, onPaper_over]
  | shutdown =>
    obtain ⟨first, short⟩ := due
    obtain ⟨requested, ticking⟩ := ticksBefore_eq_iff.mp first
    have enough : ticks + 1 ≤ count := enough
    obtain ⟨rest, split⟩ := firstSignals_continue signals enough
    rw [split, onPaper_append, firstSignals_succ, onPaper_append, firstSignals_of_ticks ticking,
      onPaper_ticks _ fun most limited => (short most limited).le, after_of_lt short, requested]
    exact onPaper_over ⟨ticks, .shutdown⟩ rest

end Phase

namespace Clock

variable {clock : Clock}

end Clock

/-- A run at a pace that has a period gets its timer, and goes on to react to
signals. -/
theorem Pace.drive?_of_pos {m : Type → Type} [Monad m] {pace : Pace} (ticking : 0 < pace.period)
    (step : m Unit) (signals : Timer → List Signal) :
    pace.drive? step signals = some (Phase.run pace.maxTicks step (.after pace.maxTicks 0)
      (signals ⟨pace.period, ticking⟩)) := by
  rw [drive?, Timer.every?, dif_pos ticking, Option.map_some]

section Draws

variable {ρ : Type} [Source ρ]

/-- Draws can be taken in two lots, the second from what the first has left. -/
theorem Source.draws_add (first second : Nat) (source : ρ) :
    (Source.draws (first + second) source).2 =
      (Source.draws second (Source.draws first source).2).2 := by
  induction first generalizing source with
  | zero => simp [Source.draws]
  | succ first inductionHypothesis =>
    rw [Nat.succ_add]
    exact inductionHypothesis _

/-- A walk takes one draw for each channel, whatever the draws are. -/
theorem Store.source_walk (channels : List Channel) (source : ρ) :
    (Store.walk channels source).2 = (Source.draws channels.length source).2 := by
  induction channels generalizing source with
  | nil => rfl
  | cons channel rest inductionHypothesis => exact inductionHypothesis _

/-- A tick neither adds nor loses a channel. -/
theorem Store.size_tick (store : Store) (source : ρ) :
    (store.tick source).1.size = store.size := by
  have names := congrArg List.length (Store.names_tick store source)
  simpa only [Store.size, Store.names, List.length_map, Array.length_toList] using names

end Draws

/-- The board with other counts of ticks and of durations. -/
def Board.withTiming {ω : Type} (board : Board ω) (ticks : Metering.Counters)
    (durations : Metering.Histograms) : Board ω :=
  { board with metrics := { board.metrics with ticks := ticks, tickDuration := durations } }

/-- Nobody who listens, nor the hook, looks at the counts of ticks and durations
or touches them. -/
structure Untimed {ω : Type}
    (observers : Observer.Registry EventKind (Board ω) (Observer.Listener Event (Board ω))) :
    Prop where
  listeners : ∀ entry ∈ observers.entries, ∀ event board ticks durations,
    entry.listener event (board.withTiming ticks durations) =
      let heard : Observer.Outcome × Board ω := entry.listener event board
      (heard.1, heard.2.withTiming ticks durations)
  hook : ∀ kind fault board ticks durations,
    observers.hook kind fault (board.withTiming ticks durations) =
      (observers.hook kind fault board).withTiming ticks durations

namespace Untimed

variable {ω : Type} {observers : Observer.Registry EventKind (Board ω)
  (Observer.Listener Event (Board ω))}

/-- A dispatch goes the same way whatever was counted. Neither a listener nor
the hook sees the counts, so that they can be put back afterwards. -/
theorem notify (untimed : Untimed observers) (kind : EventKind) (event : Event) (board : Board ω)
    (ticks : Metering.Counters) (durations : Metering.Histograms) :
    (observers.notify kind event (board.withTiming ticks durations) : Observer.Report × Board ω) =
      let told : Observer.Report × Board ω := observers.notify kind event board
      (told.1, told.2.withTiming ticks durations) := by
  unfold Observer.Registry.notify Observer.Registry.listeners
  generalize listed : (observers.entries.filter fun entry => entry.kind = kind) = entries
  have listeners : ∀ entry ∈ entries, ∀ board : Board ω,
      entry.listener event (board.withTiming ticks durations) =
        let heard : Observer.Outcome × Board ω := entry.listener event board
        (heard.1, heard.2.withTiming ticks durations) := by
    intro entry member board
    rw [← listed] at member
    exact untimed.listeners entry (List.mem_of_mem_filter member) event board ticks durations
  clear listed
  induction entries generalizing board with
  | nil => rfl
  | cons entry rest inductionHypothesis =>
    have later := fun board => inductionHypothesis board fun other member =>
      listeners other (List.mem_cons_of_mem entry member)
    have first := listeners entry List.mem_cons_self board
    simp only [List.map_cons, Observer.deliver_cons, first]
    cases (entry.listener event board).1.fault? with
    | none => simp only [later]
    | some fault =>
      have hooked := untimed.hook kind fault (entry.listener event board).2 ticks durations
      have told : ∀ world : Board ω,
          (modify (observers.hook kind fault) : StateM (Board ω) Unit) world =
            ((), observers.hook kind fault world) := fun _ => rfl
      simp only [told, hooked, later]

/-- So do dispatches made one after another. -/
theorem dispatch (untimed : Untimed observers) (events : List Event) (board : Board ω)
    (ticks : Metering.Counters) (durations : Metering.Histograms) :
    Telemetry.dispatch observers events (board.withTiming ticks durations) =
      let told := Telemetry.dispatch observers events board
      (told.1, told.2.withTiming ticks durations) := by
  induction events generalizing board with
  | nil => rfl
  | cons event rest inductionHypothesis =>
    simp only [Telemetry.dispatch, untimed.notify, inductionHypothesis]

end Untimed

namespace App

variable {ω ρ : Type}

/-- The application with other counts of ticks and of durations. -/
def withTiming (app : App ω ρ) (ticks : Metering.Counters) (durations : Metering.Histograms) :
    App ω ρ :=
  { app with outside := app.outside.withTiming ticks durations }

/-- The application without the durations that were measured. -/
def withoutDurations (app : App ω ρ) : App ω ρ := app.withTiming app.outside.metrics.ticks {}

variable [Source ρ]

/-- One step of an application, where the step after so many others takes `took`
of their number. -/
def measuredStep (took : Nat → Span) : Attempt (App ω ρ × Nat) Unit := do
  let (app, made) ← get
  let (outcome, after) := (App.step (took made)).on app
  set (after, made + 1)
  match outcome with
  | .ok _ => pure ()
  | .error fault => throw fault

/-- The application after so many calls of `step`, refused or not. -/
def afterSteps (took : Nat → Span) (app : App ω ρ) : Nat → App ω ρ
  | 0 => app
  | made + 1 => ((App.step (took made)).on (afterSteps took app made)).2

/-- An application on which no step is refused. -/
structure Steady (app : App ω ρ) : Prop where
  reachable : app.simulator.store.Reachable
  closed : app.simulator.Closed

/-- The application after a step that was not refused. -/
def advanced (app : App ω ρ) (took : Span) : App ω ρ :=
  { (Session.stepped app).2 with outside := (Session.stepped app).2.outside.timed took }

section Steps

variable {app : App ω ρ}

/-- On a steady application a step is not refused: nothing dangles, and only
what dangles is refused. So its effect is given by the closed form. -/
theorem Steady.step (steady : app.Steady) (took : Span) :
    (App.step took).on app = (.ok (Session.stepped app).1, app.advanced took) := by
  have checked : app.simulator.checkInputs = .ok () :=
    (Simulator.checkInputs_eq_ok_iff_not_dangling steady.reachable.indexed).mpr
      (Simulator.closed_iff_not_dangling.mp steady.closed)
  rw [step_on, Session.step_on app steady.reachable.indexed, checked]
  rfl

/-- A step keeps an application steady, for it registers nothing. -/
theorem Steady.advanced (steady : app.Steady) (took : Span) : (app.advanced took).Steady := by
  have done : serve [.step app.source took] (app.simulator, app.outside) =
      ((app.advanced took).simulator, (app.advanced took).outside) := by
    change Simulator.left (App.step took) app.source (app.simulator, app.outside) = _
    rw [Simulator.left, steady.step]
  have guarded : ∀ call ∈ [Call.step app.source took], Call.Guarded (ω := ω) call := by
    simp [Call.Guarded, Call.inner, Simulator.Call.Guarded]
  have served : (serve [.step app.source took] (app.simulator, app.outside)).1.store.Reachable ∧
      (serve [.step app.source took] (app.simulator, app.outside)).1.Closed :=
    closed_serve steady.reachable steady.closed guarded
  rw [done] at served
  exact ⟨served.1, served.2⟩

/-- So do any number of steps, however long they take. -/
theorem Steady.afterSteps (steady : app.Steady) (took : Nat → Span) (made : Nat) :
    (app.afterSteps took made).Steady := by
  induction made with
  | zero => exact steady
  | succ made inductionHypothesis =>
    rw [App.afterSteps, inductionHypothesis.step]
    exact inductionHypothesis.advanced (took made)

/-- Each further step advances the application from where the steps before have
left it. -/
theorem Steady.afterSteps_succ (steady : app.Steady) (took : Nat → Span) (made : Nat) :
    app.afterSteps took (made + 1) = (app.afterSteps took made).advanced (took made) := by
  rw [App.afterSteps, (steady.afterSteps took made).step]

/-- The clock has moved by as many steps as were made, since none of them was
refused. -/
theorem Steady.ticks_afterSteps (steady : app.Steady) (took : Nat → Span) (made : Nat) :
    (app.afterSteps took made).simulator.store.ticks = app.simulator.store.ticks + made := by
  induction made with
  | zero => rfl
  | succ made inductionHypothesis =>
    rw [steady.afterSteps_succ, ← Nat.add_assoc, ← inductionHypothesis]
    rfl

/-- No step adds or loses a channel. -/
theorem Steady.size_afterSteps (steady : app.Steady) (took : Nat → Span) (made : Nat) :
    (app.afterSteps took made).simulator.store.size = app.simulator.store.size := by
  induction made with
  | zero => rfl
  | succ made inductionHypothesis =>
    rw [steady.afterSteps_succ, ← inductionHypothesis]
    exact Store.size_tick ..

/-- Every step has taken one draw for each channel, and nothing else has taken
any. -/
theorem Steady.source_afterSteps (steady : app.Steady) (took : Nat → Span) (made : Nat) :
    (app.afterSteps took made).source =
      (Source.draws (made * app.simulator.store.size) app.source).2 := by
  induction made with
  | zero => rw [Nat.zero_mul]; rfl
  | succ made inductionHypothesis =>
    have size := steady.size_afterSteps took made
    rw [steady.afterSteps_succ, Nat.succ_mul, Source.draws_add, ← inductionHypothesis, ← size]
    exact Store.source_walk ..

/-- No step changes who listens. -/
theorem Steady.observers_afterSteps (steady : app.Steady) (took : Nat → Span) (made : Nat) :
    (app.afterSteps took made).simulator.observers = app.simulator.observers := by
  induction made with
  | zero => rfl
  | succ made inductionHypothesis =>
    rw [steady.afterSteps_succ, ← inductionHypothesis]
    rfl

/-- A step goes the same way whatever was counted before, and adds one tick and
one duration to it. -/
theorem advanced_withTiming (untimed : Untimed app.simulator.observers) (took : Span)
    (ticks : Metering.Counters) (durations : Metering.Histograms) :
    (app.withTiming ticks durations).advanced took =
      (app.advanced took).withTiming (ticks.increment []) (durations.observe [] took) := by
  simp only [App.advanced, Session.stepped, withTiming, untimed.dispatch]
  rfl

/-- A step adds itself to the ticks that were counted, once. -/
theorem ticks_advanced (untimed : Untimed app.simulator.observers) (took : Span) :
    (app.advanced took).outside.metrics.ticks = app.outside.metrics.ticks.increment [] := by
  have same := advanced_withTiming untimed took app.outside.metrics.ticks
    app.outside.metrics.tickDuration
  exact congrArg (fun after : App ω ρ => after.outside.metrics.ticks) same

/-- Durations aside, a step depends neither on how long it takes nor on how long
the steps before it took. -/
theorem advanced_withoutDurations (untimed : Untimed app.simulator.observers) (took other : Span) :
    (app.advanced took).withoutDurations =
      (app.withoutDurations.advanced other).withoutDurations := by
  rw [withoutDurations, ticks_advanced untimed, App.withoutDurations, App.withoutDurations,
    advanced_withTiming untimed]
  rfl

/-- The board has counted as many ticks as steps were made, up to the size of a
word. -/
theorem Steady.counted_afterSteps (steady : app.Steady)
    (untimed : Untimed app.simulator.observers) (took : Nat → Span) (made : Nat) :
    (app.afterSteps took made).outside.metrics.ticks.get [] =
      app.outside.metrics.ticks.get [] + UInt64.ofNat made := by
  induction made with
  | zero => simp [App.afterSteps]
  | succ made inductionHypothesis =>
    rw [← steady.observers_afterSteps took made] at untimed
    rw [steady.afterSteps_succ, ticks_advanced untimed, Metering.Counters.get_increment,
      if_pos rfl, inductionHypothesis, UInt64.ofNat_add, UInt64.add_assoc]
    rfl

/-- Durations aside, how long the steps take makes no difference to where they
lead. -/
theorem Steady.withoutDurations_afterSteps (steady : app.Steady)
    (untimed : Untimed app.simulator.observers) (took other : Nat → Span) (made : Nat) :
    (app.afterSteps took made).withoutDurations = (app.afterSteps other made).withoutDurations := by
  induction made with
  | zero => rfl
  | succ made inductionHypothesis =>
    have first := untimed
    have second := untimed
    rw [← steady.observers_afterSteps took made] at first
    rw [← steady.observers_afterSteps other made] at second
    rw [steady.afterSteps_succ, steady.afterSteps_succ, advanced_withoutDurations first _ .zero,
      advanced_withoutDurations second _ .zero, inductionHypothesis]

end Steps

/-- A measured step is a step, and one more of them, and is not refused
either. -/
theorem Steady.measuredStep_on {start : App ω ρ} (steady : start.Steady) (took : Nat → Span)
    (made : Nat) :
    (measuredStep took).on (start.afterSteps took made, made) =
      (.ok (), (start.afterSteps took (made + 1), made + 1)) := by
  have stepped := (steady.afterSteps took made).step (took made)
  have next := steady.afterSteps_succ took made
  simp only [measuredStep, Attempt.on_bind, Attempt.on_get, stepped, Attempt.on_set,
    Attempt.on_pure, next]

/-- Where an application stands after the first signals of a run, and what it
has become. None is a run that broke off before the first of them. -/
def drivenBy (pace : Pace) (took : Nat → Span) (signals : Nat → Signal) (start : App ω ρ)
    (count : Nat) : Option (Except Fault Phase × (App ω ρ × Nat)) :=
  (pace.drive? (measuredStep took) fun _ => firstSignals signals count).map fun driven =>
    driven.on (start, 0)

/-- Driven at a pace that has a period, an application on which no step is
refused goes where the same run goes on paper, and has made as many steps as
that run has ticks. -/
theorem Steady.drivenBy_eq {start : App ω ρ} (steady : start.Steady) {pace : Pace}
    (ticking : 0 < pace.period) (took : Nat → Span) (signals : Nat → Signal) (count : Nat) :
    start.drivenBy pace took signals count =
      let phase := Phase.onPaper pace.maxTicks (.after pace.maxTicks 0) (firstSignals signals count)
      some (.ok phase, (start.afterSteps took phase.ticks, phase.ticks)) := by
  have run := Phase.run_on pace.maxTicks (steady.measuredStep_on took) (.after pace.maxTicks 0)
    (firstSignals signals count)
  rw [Phase.ticks_after] at run
  rw [drivenBy, Pace.drive?_of_pos ticking, Option.map_some]
  exact congrArg some run

/-- A run ends as summarised. Up to the signal that settles it, every signal is
a tick and makes a step; from there on it is over, with the application as the
steps leave it that the summary counts. None of these steps is refused, and
whatever else counts has moved by as much. -/
structure Concludes (pace : Pace) (took : Nat → Span) (signals : Nat → Signal)
    (start : App ω ρ) (summary : Summary) : Prop where
  waits : ∀ count < summary.settling, start.drivenBy pace took signals count =
    some (.ok (.waiting count), (start.afterSteps took count, count))
  ended : ∀ count, summary.settling ≤ count → start.drivenBy pace took signals count =
    some (.ok (.over summary), (start.afterSteps took summary.ticks, summary.ticks))
  steps : ∀ made < summary.ticks, ∃ report,
    ((App.step (took made)).on (start.afterSteps took made)).1 = .ok report
  clock : (start.afterSteps took summary.ticks).simulator.store.ticks =
    start.simulator.store.ticks + summary.ticks
  draws : (start.afterSteps took summary.ticks).source =
    (Source.draws (summary.ticks * start.simulator.store.size) start.source).2
  counted : Untimed start.simulator.observers →
    (start.afterSteps took summary.ticks).outside.metrics.ticks.get [] =
      start.outside.metrics.ticks.get [] + UInt64.ofNat summary.ticks
  timeless : Untimed start.simulator.observers → ∀ other,
    (start.afterSteps took summary.ticks).withoutDurations =
      (start.afterSteps other summary.ticks).withoutDurations

/-- A run that has a timer ends as it has to. How it goes is settled on paper,
and each tick of the run on paper is a step that the application made. -/
theorem Steady.concludes {start : App ω ρ} (steady : start.Steady) {pace : Pace}
    (ticking : 0 < pace.period) (took : Nat → Span) {signals : Nat → Signal} {summary : Summary}
    (due : summary.Due pace.maxTicks signals) : start.Concludes pace took signals summary where
  waits := fun count early => by rw [steady.drivenBy_eq ticking, Phase.onPaper_early due early]; rfl
  ended := fun count enough => by rw [steady.drivenBy_eq ticking, Phase.onPaper_due due enough]; rfl
  steps := fun made _ => ⟨_, congrArg Prod.fst ((steady.afterSteps took made).step (took made))⟩
  clock := steady.ticks_afterSteps took summary.ticks
  draws := steady.source_afterSteps took summary.ticks
  counted := fun untimed => steady.counted_afterSteps untimed took summary.ticks
  timeless := fun untimed other => steady.withoutDurations_afterSteps untimed took other _

/-- How an application is driven at a pace, given the signals. With a limit that
the ticks before the first shutdown reach, it concludes there; else it concludes
at the shutdown, if there is one; with a limit it always concludes; and with
neither it makes a step at every signal, for ever. -/
structure Driven (pace : Pace) (took : Nat → Span) (signals : Nat → Signal) (start : App ω ρ) :
    Prop where
  atLimit : ∀ most, pace.maxTicks = some most → most ≤ ticksBefore signals →
    start.Concludes pace took signals ⟨most, .maxTicks⟩
  atShutdown : ∀ ticks : Nat, ticksBefore signals = ticks →
    (∀ most, pace.maxTicks = some most → ticks < most) →
      start.Concludes pace took signals ⟨ticks, .shutdown⟩
  ends : pace.maxTicks.isSome = true → ∃ summary, start.Concludes pace took signals summary
  endless : pace.maxTicks = none → ticksBefore signals = ⊤ → ∀ count,
    start.drivenBy pace took signals count =
      some (.ok (.waiting count), (start.afterSteps took count, count))

/-- An application on which no step is refused is driven in this way at every
pace that has a period, whatever the signals are and however long the steps
take. -/
theorem Steady.driven {start : App ω ρ} (steady : start.Steady) {pace : Pace}
    (ticking : 0 < pace.period) (took : Nat → Span) (signals : Nat → Signal) :
    start.Driven pace took signals where
  atLimit := fun _ limited reached => steady.concludes ticking took ⟨limited, reached⟩
  atShutdown := fun _ first short => steady.concludes ticking took ⟨first, short⟩
  ends := by
    intro limited
    obtain ⟨summary, due⟩ := Summary.exists_due_of_limit limited signals
    exact ⟨summary, steady.concludes ticking took due⟩
  endless := by
    intro unlimited never count
    rw [steady.drivenBy_eq ticking, Phase.onPaper_waiting (never ▸ le_top) (by simp [unlimited])]
    rfl

end App

namespace App

end App
end Telemetry
