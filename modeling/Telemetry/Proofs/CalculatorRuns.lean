import Telemetry.Calculator
import Telemetry.Proofs.Announcements
import Telemetry.Proofs.FloatRange
import Telemetry.Proofs.Histories
import Telemetry.Proofs.Refusal
import Telemetry.Proofs.Subscriptions

/-!
# What a calculator has counted

A run is any list of calls on a new calculator, with listeners that may fail or
crash. Its statistics count the calculations since the last reset, each once and
by outcome, and every calculation gives one sample of execution time, since a
span is a finite number of seconds. Rounding keeps numbers finite up to the
greatest precision, so a calculation that came to a number is never lost by
rounding it.

Each calculation makes one dispatch. To see that, let listeners take notes. What
a run with notes has noted is what the calculations were, listener by listener,
so a listener that stays hears as many events as the count of its kind grows by.
-/
namespace Telemetry

open Observer (Handle Listener Registry)

/-- What an operation yields is finite. Every branch that yields a number makes
it a value first, and that replaces what is not finite. -/
theorem Operation.isFinite_evaluate {operation : Operation} {left right x : Float}
    (evaluated : operation.evaluate left right = .number x) : x.isFinite = true := by
  have checked : ∀ {y : Float}, Value.ofFloat y = .number x → x.isFinite = true := by
    intro y same
    unfold Value.ofFloat at same
    by_cases finite : y.isFinite = true
    · rw [if_pos finite] at same
      cases same
      exact finite
    · rw [if_neg finite] at same
      cases same
  unfold evaluate at evaluated
  cases operation with
  | divide =>
    dsimp only at evaluated
    split at evaluated
    · cases evaluated
    · exact checked evaluated
  | sqrt =>
    dsimp only at evaluated
    split at evaluated
    · cases evaluated
    · exact checked evaluated
  | add | subtract | multiply | power => exact checked evaluated

namespace Calculator

variable {σ : Type}

/-- A call on a calculator. -/
inductive Call (σ : Type) where
  | calculate (left right : Float) (operation : Operation) (elapsed : Span)
  | reset
  | setPrecision (places : Nat)
  | subscribe (kind : CalculationKind) (listener : Listener CalculationEvent σ)
  | unsubscribe (handle : Handle CalculationKind)
  | setHook (hook : CalculationKind → Fault → σ → σ)

/-- The calculator and the world outside after a call. A refused call changes
nothing. -/
def perform (state : Calculator σ × σ) : Call σ → Calculator σ × σ
  | .calculate left right operation elapsed =>
    ((calculate left right operation elapsed).run state).2
  | .reset => (state.1.reset, state.2)
  | .setPrecision places => (standing state.1 (state.1.setPrecision places), state.2)
  | .subscribe kind listener =>
    ({ state.1 with observers := (state.1.observers.subscribe kind listener).2 }, state.2)
  | .unsubscribe handle =>
    ({ state.1 with observers := (state.1.observers.unsubscribe handle).2 }, state.2)
  | .setHook hook => ({ state.1 with observers := state.1.observers.setHook hook }, state.2)

/-- Calls made one after another. -/
def run (calls : List (Call σ)) (state : Calculator σ × σ) : Calculator σ × σ :=
  calls.foldl perform state

/-- The calculation that a call returns, if it is one. -/
def returned (state : Calculator σ × σ) : Call σ → List Calculation
  | .calculate left right operation elapsed =>
    [((calculate left right operation elapsed).run state).1]
  | _ => []

/-- What a call makes of the calculations since the last reset. -/
def collect (state : Calculator σ × σ) (made : List Calculation) : Call σ → List Calculation
  | .reset => []
  | call => made ++ returned state call

/-- The calculations since the last reset, where some were made before the
run. -/
def sinceReset : List (Call σ) → Calculator σ × σ → List Calculation → List Calculation
  | [], _, made => made
  | call :: rest, state, made => sinceReset rest (perform state call) (collect state made call)

/-- The precision that a call sets, if it is not refused. -/
def chosen (state : Calculator σ × σ) : Call σ → List Nat
  | .setPrecision places =>
    match state.1.setPrecision places with
    | .ok _ => [places]
    | .error _ => []
  | _ => []

section Precision

/-- A precision up to the greatest is accepted and set. -/
theorem setPrecision_of_le (calculator : Calculator σ) {places : Nat}
    (few : places ≤ greatestPrecision) :
    calculator.setPrecision places = .ok { calculator with precision := places } :=
  if_neg (Nat.not_lt.mpr few)

/-- A greater one is refused, and the fault tells both. -/
theorem setPrecision_of_not_le (calculator : Calculator σ) {places : Nat}
    (many : ¬places ≤ greatestPrecision) :
    calculator.setPrecision places = .error (.precisionTooLarge places greatestPrecision) :=
  if_pos (Nat.lt_of_not_le many)

/-- The precision after an attempt to set it is the one asked for or, if that
was too great, the one that stood before. -/
theorem setPrecision_standing (calculator : Calculator σ) (places : Nat) :
    standing calculator (calculator.setPrecision places) =
      { calculator with
        precision := if places ≤ greatestPrecision then places else calculator.precision } := by
  by_cases few : places ≤ greatestPrecision
  · rw [setPrecision_of_le calculator few, if_pos few, standing_ok]
  · rw [setPrecision_of_not_le calculator few, if_neg few, standing_error]

/-- Of the precisions asked for, those up to the greatest are chosen. -/
theorem chosen_setPrecision (state : Calculator σ × σ) (places : Nat) :
    chosen state (.setPrecision places) = if places ≤ greatestPrecision then [places] else [] := by
  by_cases few : places ≤ greatestPrecision
  · rw [chosen, setPrecision_of_le state.1 few, if_pos few]
  · rw [chosen, setPrecision_of_not_le state.1 few, if_neg few]

/-- Only an accepted precision changes the precision. A refused one leaves
everything, and no other call has anything to do with it. -/
theorem precision_perform (state : Calculator σ × σ) (call : Call σ) :
    (perform state call).1.precision = (chosen state call).getLastD state.1.precision := by
  cases call with
  | setPrecision places =>
    rw [perform, setPrecision_standing, chosen_setPrecision]
    dsimp only
    split <;> rfl
  | _ => rfl

/-- After a run the precision is the last one chosen, or that of the start where
none was. -/
theorem precision_run (calls : List (Call σ)) (state : Calculator σ × σ) :
    (run calls state).1.precision =
      (along perform chosen calls state).getLastD state.1.precision := by
  induction calls generalizing state with
  | nil => rfl
  | cons call rest inductionHypothesis =>
    rw [run, List.foldl_cons, ← run, inductionHypothesis, precision_perform, along]
    simp only [List.getLastD_eq_getLast?, List.getLast?_append, Option.getD_or]

/-- The precision stays one that numbers can be rounded to: it starts as such,
and only such are accepted. -/
theorem precision_le (calls : List (Call σ)) (outside : σ) :
    (run calls ({}, outside)).1.precision ≤ greatestPrecision := by
  refine List.foldlRecOn calls perform
    (motive := fun state : Calculator σ × σ => state.1.precision ≤ greatestPrecision)
    (by decide : (2 : Nat) ≤ 15) ?_
  intro state small call _
  cases call with
  | setPrecision places =>
    rw [perform, setPrecision_standing]
    dsimp only
    split
    · assumption
    · exact small
  | _ => exact small

end Precision

end Calculator

namespace Calculation

/-- Whether a calculation came to a number is what its event tells by its
kind. -/
theorem kind_event (calculation : Calculation) :
    calculation.event.kind = if calculation.value.isNumber then .completed else .error := by
  unfold event
  cases calculation.value with
  | number result => rfl
  | undefined why => rfl

/-- What a listener learns of a calculation: by the kind of event whether it
came to a number, and from the event all of the calculation, with the reason if
there is no number. -/
structure Announced (calculation : Calculation) (event : CalculationEvent) : Prop where
  kind : event.kind = if calculation.value.isNumber then .completed else .error
  whole : event.calculation = calculation
  reason : event.why? = calculation.value.undefined?

/-- The event of a calculation announces it, with nothing left out: the
calculation itself is part of either kind of event. -/
theorem announced_event (calculation : Calculation) : calculation.Announced calculation.event := by
  constructor
  · exact calculation.kind_event
  · unfold event
    cases calculation.value with
    | number result => rfl
    | undefined why => rfl
  · unfold event
    cases calculation.value with
    | number result => rfl
    | undefined why => rfl

end Calculation

/-- The statistics count these calculations, each of them once. -/
structure CalculatorStatistics.Accounts (statistics : CalculatorStatistics)
    (made : List Calculation) : Prop where
  total : statistics.total = made.length
  successful : statistics.successful = made.countP fun calculation => calculation.value.isNumber
  errors : statistics.errors = made.countP fun calculation => !calculation.value.isNumber
  samples : statistics.executionSeconds.count = made.length

namespace CalculatorStatistics

/-- The calculations of a kind that have been counted. -/
def counted (statistics : CalculatorStatistics) : CalculationKind → Nat
  | .completed => statistics.successful
  | .error => statistics.errors

/-- The count of a kind of calculation is the number of events of that kind,
because the event of a calculation tells by its kind how it ended. -/
theorem Accounts.counted {statistics : CalculatorStatistics} {made : List Calculation}
    (accounts : statistics.Accounts made) (kind : CalculationKind) :
    statistics.counted kind = made.countP fun calculation => calculation.event.kind = kind := by
  cases kind with
  | completed =>
    rw [CalculatorStatistics.counted, accounts.successful]
    refine List.countP_congr fun calculation _ => ?_
    rw [calculation.kind_event]
    cases calculation.value.isNumber <;> decide
  | error =>
    rw [CalculatorStatistics.counted, accounts.errors]
    refine List.countP_congr fun calculation _ => ?_
    rw [calculation.kind_event]
    cases calculation.value.isNumber <;> decide

/-- Every calculation is counted as successful or as an error, and not as
both. -/
theorem Accounts.total_eq {statistics : CalculatorStatistics} {made : List Calculation}
    (accounts : statistics.Accounts made) :
    statistics.total = statistics.successful + statistics.errors := by
  rw [accounts.total, accounts.successful, accounts.errors,
    List.length_eq_countP_add_countP fun calculation => calculation.value.isNumber]
  simp only [Bool.not_eq_true, Bool.decide_eq_false]

/-- New statistics count no calculations. -/
theorem accounts_nil : Accounts {} [] := ⟨rfl, rfl, rfl, rfl⟩

/-- A span is always a sample, since it is a finite number of seconds. So the
count of the samples grows with that of the calculations. -/
theorem accounts_record {statistics : CalculatorStatistics} {made : List Calculation}
    (accounts : statistics.Accounts made) (calculation : Calculation) (elapsed : Span) :
    (statistics.record calculation.value elapsed).Accounts (made ++ [calculation]) where
  total := by
    rw [record, accounts.total, List.length_append, List.length_singleton]
  successful := by
    rw [record, accounts.successful, List.countP_append, List.countP_singleton]
    dsimp only
    split <;> rfl
  errors := by
    rw [record, accounts.errors, List.countP_append, List.countP_singleton]
    dsimp only
    cases calculation.value.isNumber <;> rfl
  samples := by
    rw [record, Statistic.push, if_pos elapsed.isFinite_toSeconds, List.length_append,
      List.length_singleton, ← accounts.samples]
    rfl

end CalculatorStatistics

namespace Calculator

variable {σ : Type}

section Statistics

/-- A call keeps the statistics in step with the calculations since the last
reset. A reset empties both, a calculation adds itself to both, and nothing else
counts. -/
theorem accounts_perform {state : Calculator σ × σ} {made : List Calculation}
    (accounts : state.1.statistics.Accounts made) (call : Call σ) :
    (perform state call).1.statistics.Accounts (collect state made call) := by
  have silent : state.1.statistics.Accounts (made ++ []) := by
    rw [List.append_nil]
    exact accounts
  cases call with
  | calculate left right operation elapsed =>
    exact CalculatorStatistics.accounts_record accounts
      ((calculate left right operation elapsed).run state).1 elapsed
  | reset => exact CalculatorStatistics.accounts_nil
  | setPrecision places =>
    rw [perform, setPrecision_standing]
    exact silent
  | subscribe _ _ | unsubscribe _ | setHook _ => exact silent

/-- After every run the statistics count the calculations since the last reset,
by induction over its calls. -/
theorem accounts_run {state : Calculator σ × σ} {made : List Calculation}
    (accounts : state.1.statistics.Accounts made) (calls : List (Call σ)) :
    (run calls state).1.statistics.Accounts (sinceReset calls state made) := by
  induction calls generalizing state made with
  | nil => exact accounts
  | cons call rest inductionHypothesis => exact inductionHypothesis (accounts_perform accounts call)

/-- A run in two parts goes on collecting where its first part has ended. -/
theorem sinceReset_append (before after : List (Call σ)) (state : Calculator σ × σ)
    (made : List Calculation) :
    sinceReset (before ++ after) state made =
      sinceReset after (run before state) (sinceReset before state made) := by
  induction before generalizing state made with
  | nil => rfl
  | cons call rest inductionHypothesis => exact inductionHypothesis (perform state call) _

/-- Without a reset nothing is forgotten, and what was made before stays in
front of what the run returns. -/
theorem sinceReset_of_kept {calls : List (Call σ)} (kept : .reset ∉ calls)
    (state : Calculator σ × σ) (made : List Calculation) :
    sinceReset calls state made = made ++ along perform returned calls state := by
  induction calls generalizing state made with
  | nil => exact (List.append_nil made).symm
  | cons call rest inductionHypothesis =>
    have collected : collect state made call = made ++ returned state call := by
      cases call with
      | reset => exact absurd List.mem_cons_self kept
      | _ => rfl
    rw [sinceReset, inductionHypothesis (List.not_mem_of_not_mem_cons kept), collected, along,
      List.append_assoc]

end Statistics

section Answers

/-- What a caller gets: a finite number where the operation yields a number, and
otherwise the reason why it yields none. -/
structure Answers (evaluated : Value) (calculation : Calculation) : Prop where
  number : calculation.value.isNumber = evaluated.isNumber
  finite : ∀ x, calculation.value = .number x → x.isFinite = true
  reason : calculation.value.undefined? = evaluated.undefined?

/-- Rounding spoils no number, up to the greatest precision: a finite number
that can be scaled by so small a power of ten can be scaled back, and any other
is kept as it is. -/
theorem answers_calculate (left right : Float) (operation : Operation) (elapsed : Span)
    {state : Calculator σ × σ} (small : state.1.precision ≤ greatestPrecision) :
    Answers (operation.evaluate left right)
      ((calculate left right operation elapsed).run state).1 := by
  cases evaluated : operation.evaluate left right with
  | number x =>
    have value : ((calculate left right operation elapsed).run state).1.value =
        .number (Number.roundTo state.1.precision x) := by
      simp only [calculate, evaluated]
      rfl
    refine ⟨by rw [value]; rfl, ?_, by rw [value]; rfl⟩
    intro rounded same
    rw [value] at same
    cases same
    exact Number.isFinite_roundTo small (Operation.isFinite_evaluate evaluated)
  | undefined why =>
    have value : ((calculate left right operation elapsed).run state).1.value =
        .undefined why := by
      simp only [calculate, evaluated]
      rfl
    refine ⟨by rw [value], ?_, by rw [value]⟩
    intro x same
    rw [value] at same
    cases same

end Answers

section Notes

/-- What listeners have been told, each under the number of its subscription. -/
abbrev Notes := List (Nat × CalculationEvent)

/-- How notes are taken: a listener notes what it is told, under its number, and
the hook nothing. -/
def noting : Observer.Diary CalculationKind CalculationEvent (Nat × CalculationEvent) where
  called := fun id event _ => (id, event)
  hooked := fun _ _ => []

/-- Taking notes changes nothing about a dispatch. Each listener of the kind is
told once, in the order of subscription, whatever the others do. -/
theorem notify_noted
    (observers : Registry CalculationKind σ (Listener CalculationEvent σ))
    (kind : CalculationKind) (event : CalculationEvent) (outside : σ) (notes : Notes) :
    ((noting.kept observers).notify kind event (outside, notes) :
        Observer.Report × (σ × Notes)) =
      let told : Observer.Report × σ := observers.notify kind event outside
      (told.1, (told.2, notes ++ (observers.ids kind).map fun id => (id, event))) := by
  obtain ⟨heard, ids, _, told⟩ := noting.notify_kept observers kind event outside notes
  have line : ∀ call : Nat × Observer.Outcome,
      noting.lines kind event call = [(call.1, event)] := by
    intro call
    cases ended : call.2.fault? <;> simp [Observer.Diary.lines, noting, ended]
  have lines : heard.flatMap (noting.lines kind event) =
      (heard.map Prod.fst).map fun id => (id, event) := by
    rw [List.map_map, List.map_eq_flatMap]
    exact congrArg (fun written => heard.flatMap written) (funext line)
  rw [told, lines, ids]

/-- Before anybody has subscribed there is nobody to take notes: the hook that
does nothing writes nothing either. -/
theorem noted_empty :
    noting.kept ({} : Registry CalculationKind σ (Listener CalculationEvent σ)) = {} := by
  have silent : (noting.hook fun _ _ outside => outside :
      CalculationKind → Fault → σ × Notes → σ × Notes) = fun _ _ outside => outside := by
    funext kind fault world
    exact Prod.ext rfl (List.append_nil world.2)
  simp only [Observer.Diary.kept, Registry.rewired, silent, List.map_nil]

/-- The same call, with notes taken by the listener that it brings. The number
is that of the next subscription. -/
def Call.noted (id : Nat) : Call σ → Call (σ × Notes)
  | .calculate left right operation elapsed => .calculate left right operation elapsed
  | .reset => .reset
  | .setPrecision places => .setPrecision places
  | .subscribe kind listener => .subscribe kind (noting.listener id listener)
  | .unsubscribe handle => .unsubscribe handle
  | .setHook hook => .setHook (noting.hook hook)

/-- The calls of a run, with notes taken by every listener that they bring. -/
def notedCalls (calls : List (Call σ)) (state : Calculator σ × σ) : List (Call (σ × Notes)) :=
  along perform (fun state call => [call.noted state.1.observers.nextId]) calls state

/-- A calculator and the world outside, with notes as they stand. -/
def withNotes (state : Calculator σ × σ) (notes : Notes) :
    Calculator (σ × Notes) × (σ × Notes) :=
  (⟨state.1.statistics, state.1.precision, noting.kept state.1.observers⟩, (state.2, notes))

/-- What a call tells, and whom. -/
def delivered (state : Calculator σ × σ) (call : Call σ) : Notes :=
  (returned state call).flatMap fun calculation =>
    (state.1.observers.ids calculation.event.kind).map fun id => (id, calculation.event)

/-- Taking notes changes nothing else about a call. Only a calculation makes a
dispatch, and for it the notes are those of the dispatch. -/
theorem perform_noted (state : Calculator σ × σ) (call : Call σ) (notes : Notes) :
    perform (withNotes state notes) (call.noted state.1.observers.nextId) =
      withNotes (perform state call) (notes ++ delivered state call) := by
  have silent : notes ++ [] = notes := List.append_nil notes
  cases call with
  | calculate left right operation elapsed =>
    let calculation := ((calculate left right operation elapsed).run state).1
    have told := congrArg Prod.snd (notify_noted state.1.observers
      calculation.event.kind calculation.event state.2 notes)
    rw [delivered, returned, List.flatMap_singleton]
    exact Prod.ext rfl told
  | reset => exact congrArg (withNotes (perform state .reset)) silent.symm
  | setPrecision places =>
    have same : delivered state (.setPrecision places) = [] := rfl
    rw [Call.noted, perform, perform, setPrecision_standing, setPrecision_standing, same, silent]
    rfl
  | subscribe kind listener =>
    have listening := congrArg Prod.snd (Registry.rewired_subscribe noting.listener noting.hook
      state.1.observers kind listener)
    exact Prod.ext (congrArg (Calculator.mk _ _) listening) (congrArg (Prod.mk _) silent.symm)
  | unsubscribe handle =>
    have listening := congrArg Prod.snd (Registry.rewired_unsubscribe noting.listener noting.hook
      state.1.observers handle)
    exact Prod.ext (congrArg (Calculator.mk _ _) listening) (congrArg (Prod.mk _) silent.symm)
  | setHook hook => exact congrArg (withNotes (perform state (.setHook hook))) silent.symm

/-- So a run with notes does what the run does, and has noted what each of its
calls delivers, in order. -/
theorem run_noted (calls : List (Call σ)) (state : Calculator σ × σ) (notes : Notes) :
    run (notedCalls calls state) (withNotes state notes) =
      withNotes (run calls state) (notes ++ along perform delivered calls state) := by
  induction calls generalizing state notes with
  | nil => exact congrArg (withNotes state) (List.append_nil notes).symm
  | cons call rest inductionHypothesis =>
    have later := inductionHypothesis (perform state call) (notes ++ delivered state call)
    rw [← perform_noted, List.append_assoc] at later
    exact later

end Notes

section Counts

/-- Calls keep the subscriptions numbered, since only subscribing gives a number
and only unsubscribing takes an entry away. -/
theorem numbered_perform {state : Calculator σ × σ} (numbered : state.1.observers.Numbered)
    (call : Call σ) : (perform state call).1.observers.Numbered := by
  cases call with
  | setPrecision places =>
    rw [perform, setPrecision_standing]
    exact numbered
  | subscribe kind listener => exact Registry.numbered_subscribe numbered kind listener
  | unsubscribe handle => exact Registry.numbered_unsubscribe numbered handle
  | calculate _ _ _ _ | reset => exact numbered
  | setHook _ => exact ⟨numbered.distinct, numbered.issued⟩

/-- The subscriptions are numbered after any run from a new calculator. -/
theorem numbered_run (calls : List (Call σ)) (outside : σ) :
    (run calls ({}, outside)).1.observers.Numbered :=
  List.foldlRecOn calls perform
    (motive := fun state : Calculator σ × σ => state.1.observers.Numbered)
    Registry.numbered_empty fun _ numbered call _ => numbered_perform numbered call

/-- A listener stays until its own handle is used. Other handles name other
subscriptions, and other calls leave the registry. -/
theorem subscribed_perform {state : Calculator σ × σ} {handle : Handle CalculationKind}
    (subscribed : state.1.observers.Subscribed handle) {call : Call σ}
    (kept : call ≠ .unsubscribe handle) :
    (perform state call).1.observers.Subscribed handle := by
  cases call with
  | setPrecision places =>
    rw [perform, setPrecision_standing]
    exact subscribed
  | subscribe kind listener => exact Registry.subscribed_subscribe subscribed kind listener
  | unsubscribe other =>
    refine Registry.subscribed_unsubscribe subscribed ?_
    rintro rfl
    exact kept rfl
  | calculate _ _ _ _ | reset | setHook _ => exact subscribed

/-- A listener is told of a calculation of its kind once, and of no other. Its
number stands once among those of the kind, as numbers are not given twice. -/
theorem count_delivered {state : Calculator σ × σ} (numbered : state.1.observers.Numbered)
    {handle : Handle CalculationKind} (subscribed : state.1.observers.Subscribed handle)
    (call : Call σ) :
    (delivered state call).countP (fun note => note.1 = handle.id) =
      (returned state call).countP fun calculation => calculation.event.kind = handle.kind := by
  cases call with
  | calculate left right operation elapsed =>
    rw [delivered, returned, List.flatMap_singleton, List.countP_map, List.countP_singleton]
    have told := Registry.count_ids numbered subscribed
      ((calculate left right operation elapsed).run state).1.event.kind
    simp only [decide_eq_true_eq]
    rw [← told]
    rfl
  | _ => rfl

/-- Along a run in which its handle is not used, a listener is told of each
calculation of its kind once. -/
theorem count_along_delivered {state : Calculator σ × σ} (numbered : state.1.observers.Numbered)
    {handle : Handle CalculationKind} (subscribed : state.1.observers.Subscribed handle)
    {calls : List (Call σ)} (kept : .unsubscribe handle ∉ calls) :
    (along perform delivered calls state).countP (fun note => note.1 = handle.id) =
      (along perform returned calls state).countP fun calculation =>
        calculation.event.kind = handle.kind := by
  induction calls generalizing state with
  | nil => rfl
  | cons call rest inductionHypothesis =>
    have here : call ≠ .unsubscribe handle := (List.ne_of_not_mem_cons kept).symm
    rw [along, along, List.countP_append, List.countP_append,
      count_delivered numbered subscribed call,
      inductionHypothesis (numbered_perform numbered call) (subscribed_perform subscribed here)
        (List.not_mem_of_not_mem_cons kept)]

end Counts

/-- A call that returns no calculation tells nobody anything, and so leaves the
world outside as it was. -/
theorem outside_of_silent (state : Calculator σ × σ) {call : Call σ}
    (silent : returned state call = []) : (perform state call).2 = state.2 := by
  cases call with
  | calculate _ _ _ _ => cases silent
  | _ => rfl

/-- While a listener stays and nothing is reset, it hears of each calculation of
its kind that is counted. Both grow by the calculations of that kind that the
run returns. -/
theorem heard_eq_counted (outside : σ) {before after : List (Call σ)} (unbroken : .reset ∉ after)
    {handle : Handle CalculationKind} (kept : .unsubscribe handle ∉ after)
    (subscribed : (run before ({}, outside)).1.observers.Subscribed handle) :
    (along perform delivered (before ++ after) ({}, outside)).countP
          (fun note => note.1 = handle.id) +
        (run before ({}, outside)).1.statistics.counted handle.kind =
      (along perform delivered before ({}, outside)).countP (fun note => note.1 = handle.id) +
        (run (before ++ after) ({}, outside)).1.statistics.counted handle.kind := by
  have former := (accounts_run CalculatorStatistics.accounts_nil before
    : (run before ({}, outside)).1.statistics.Accounts _)
  have latter := (accounts_run CalculatorStatistics.accounts_nil (before ++ after)
    : (run (before ++ after) ({}, outside)).1.statistics.Accounts _)
  rw [former.counted, latter.counted, sinceReset_append, sinceReset_of_kept unbroken,
    along_append, List.countP_append, List.countP_append, ← run,
    count_along_delivered (numbered_run before outside) subscribed kept]
  omega

/-- After any calls, the precision is the last one accepted and never too large.
The statistics count the calculations since the last reset, by outcome. The next
calculation returns a finite number exactly if the operation yields a number,
and makes one dispatch, of an event that announces what is returned. The other
calls make none. Listeners that take notes have noted each dispatch of their
kind once. So while a listener stays and nothing is reset, it hears as many
events as the count of its kind grows by.

The counts are invariants of the run. What listeners hear is seen from the same
run with notes, which differs in nothing else. -/
theorem accounts_for_every_calculation (calls : List (Call σ)) (outside : σ) :
    let start : Calculator σ × σ := ({}, outside)
    let reached := run calls start
    let statistics := reached.1.statistics
    let made := sinceReset calls start []
    let notes := along perform delivered calls start
    (reached.1.precision ≤ 15 ∧
      reached.1.precision = (along perform chosen calls start).getLastD 2) ∧
    (statistics.Accounts made ∧ statistics.total = statistics.successful + statistics.errors ∧
      ∀ kind, statistics.counted kind = made.countP fun past => past.event.kind = kind) ∧
    (∀ left right operation elapsed, ∃ calculation event,
      (calculate left right operation elapsed).run reached =
        (calculation,
          { reached.1 with statistics := statistics.record calculation.value elapsed },
          (reached.1.observers.notify event.kind event reached.2).2) ∧
      (calculation.operation = operation ∧ calculation.left = left ∧ calculation.right = right) ∧
      Answers (operation.evaluate left right) calculation ∧ calculation.Announced event) ∧
    (∀ call, returned reached call = [] → (perform reached call).2 = reached.2) ∧
    run (notedCalls calls start) ({}, (outside, [])) = withNotes reached notes ∧
    ∀ before after handle, calls = before ++ after → .reset ∉ after →
      .unsubscribe handle ∉ after → (run before start).1.observers.Subscribed handle →
      notes.countP (fun note => note.1 = handle.id) +
          (run before start).1.statistics.counted handle.kind =
        (along perform delivered before start).countP (fun note => note.1 = handle.id) +
          statistics.counted handle.kind := by
  intro start reached statistics made notes
  have small := precision_le calls outside
  have accounts : statistics.Accounts made := accounts_run CalculatorStatistics.accounts_nil calls
  refine ⟨⟨small, precision_run calls start⟩, ⟨accounts, accounts.total_eq, accounts.counted⟩,
    ?_, fun call => outside_of_silent reached, ?_, ?_⟩
  · intro left right operation elapsed
    let calculation := ((calculate left right operation elapsed).run reached).1
    exact ⟨calculation, calculation.event, rfl, ⟨rfl, rfl, rfl⟩,
      answers_calculate left right operation elapsed small, calculation.announced_event⟩
  · have noted := run_noted calls start []
    rwa [withNotes, noted_empty] at noted
  · rintro before after handle rfl unbroken kept subscribed
    exact heard_eq_counted outside unbroken kept subscribed

end Calculator

end Telemetry
