import Telemetry.Proofs.DerivationTurns
import Telemetry.Proofs.EngineLedger
import Telemetry.Proofs.SnapshotReadings

/-!
# What a derivation has accumulated

A derivation remembers its previous metric, and in it how many numbers it has
yielded and the latest of them. Both pass over undefined results, refused
recomputations change nothing, and a reset starts all of it afresh. So what is
remembered can be read off the metrics that were handed out for the derivation
since its registration or its last reset: the last of them, how many of them are
numbers, and the last of those numbers.

A formula may hand over a number that is not finite. It is replaced before it is
reported, so every number that an engine has reported or holds is finite.
-/
namespace Telemetry

/-- The metrics derived since the last reset, when `kept` were before this
turn. -/
def Turn.keep (kept : List Metrics) : Turn → List Metrics
  | derived _ metrics => kept ++ [metrics]
  | reset => []

/-- The metrics derived since the last of the resets among these turns. -/
def sinceReset (turns : List Turn) : List Metrics := turns.foldl Turn.keep []

/-- A derivation of metrics adds them to what was derived since the last
reset. -/
@[simp] theorem sinceReset_derived (past : List Turn) (snapshot : Snapshot) (metrics : Metrics) :
    sinceReset (past ++ [.derived snapshot metrics]) = sinceReset past ++ [metrics] := by
  simp [sinceReset, Turn.keep]

/-- After a reset nothing has been derived since. -/
@[simp] theorem sinceReset_reset (past : List Turn) : sinceReset (past ++ [.reset]) = [] := by
  simp [sinceReset, Turn.keep]

/-- Every number in a metric is finite. -/
structure Metric.Finite (metric : Metric) : Prop where
  value : ∀ number, metric.value = .number number → number.isFinite = true
  lastNumber : ∀ number, metric.lastNumber = some number → number.isFinite = true

/-- Exactly the finite numbers are let through. A number that is not finite
becomes an undefined value, and an undefined value stays one. -/
theorem Value.normalize_eq_number_iff {value : Value} {number : Float} :
    value.normalize = .number number ↔ value = .number number ∧ number.isFinite = true := by
  cases value with
  | undefined why => simp [Value.normalize]
  | number given =>
    simp only [Value.normalize, Value.ofFloat]
    by_cases finite : given.isFinite = true
    · rw [if_pos finite]
      constructor
      · intro same
        cases same
        exact ⟨rfl, finite⟩
      · exact And.left
    · rw [if_neg finite]
      constructor
      · intro different
        cases different
      · rintro ⟨same, passed⟩
        cases same
        exact absurd passed finite

namespace Derivation

/-- Where what is remembered is finite, what is reported next is finite: the
value has been normalized, and the last number is this value or the one
remembered. -/
theorem finite_evaluate {derivation : Derivation}
    (finite : ∀ metric, derivation.previous = some metric → metric.Finite) (snapshot : Snapshot) :
    (derivation.evaluate snapshot).Finite := by
  have value : ∀ number, (derivation.evaluate snapshot).value = .number number →
      number.isFinite = true := fun number same => (Value.normalize_eq_number_iff.mp same).2
  refine ⟨value, ?_⟩
  intro number latest
  cases yielded : (derivation.evaluate snapshot).value with
  | number given =>
    rw [lastNumber_evaluate, yielded] at latest
    cases latest
    exact value number yielded
  | undefined why =>
    rw [lastNumber_evaluate, yielded] at latest
    obtain ⟨metric, held, carried⟩ := Option.bind_eq_some_iff.mp latest
    exact (finite metric held).lastNumber number carried

/-- A number that is not finite is reported as undefined, and does not count.
Normalizing comes before counting, so the formula's own answer is not looked at
again. -/
theorem evaluate_of_not_finite {derivation : Derivation} {snapshot : Snapshot} {number : Float}
    (given : derivation.compute (.view snapshot derivation.dependsOn derivation.previous) =
      .number number)
    (infinite : number.isFinite = false) :
    (derivation.evaluate snapshot).value = .undefined .nonFinite ∧
      (derivation.evaluate snapshot).samples = derivation.yielded := by
  have value : (derivation.evaluate snapshot).value = .undefined .nonFinite := by
    simp [evaluate, given, Value.normalize, Value.ofFloat, infinite]
  refine ⟨value, ?_⟩
  have counted := derivation.yielded_remember snapshot
  rwa [value] at counted

/-- What a derivation remembers is what was handed out for its name since it
last started: the last metric, the count of the numbers and the last number. -/
structure Remembers (name : String) (history : List Metrics) (derivation : Derivation) :
    Prop where
  reported : ∀ metrics ∈ history, (metrics.get? name).isSome = true
  latest : derivation.previous = history.getLast?.bind fun metrics => metrics.get? name
  samples : derivation.yielded = (history.filterMap fun metrics => metrics.number? name).length
  lastNumber : derivation.previous.bind Metric.lastNumber =
    (history.filterMap fun metrics => metrics.number? name).getLast?

/-- A derivation without a past remembers nothing, as it should with an empty
history. -/
theorem remembers_nil {name : String} {derivation : Derivation}
    (unused : derivation.previous = none) : derivation.Remembers name [] where
  reported := fun _ member => absurd member List.not_mem_nil
  latest := unused
  samples := by rw [yielded, unused]; rfl
  lastNumber := by rw [unused]; rfl

/-- An evaluation adds the metric that is handed out for it. If it is a number
it is the last one and is counted, and otherwise both stay as they were. -/
theorem remembers_derived {name : String} {history : List Metrics} {derivation : Derivation}
    (remembers : derivation.Remembers name history) {snapshot : Snapshot} {metrics : Metrics}
    (reported : metrics.get? name = some (derivation.evaluate snapshot)) :
    (derivation.remember snapshot).Remembers name (history ++ [metrics]) := by
  have number : metrics.number? name = (derivation.evaluate snapshot).value.number? := by
    rw [Metrics.number?, reported, Option.bind_some]
  have numbers : ((history ++ [metrics]).filterMap fun metrics => metrics.number? name) =
      (history.filterMap fun metrics => metrics.number? name) ++
        (derivation.evaluate snapshot).value.number?.toList := by
    rw [List.filterMap_append, ← number]
    cases yielded : metrics.number? name <;> simp [yielded]
  constructor
  · intro other member
    rcases List.mem_append.mp member with former | new
    · exact remembers.reported other former
    · rw [List.mem_singleton.mp new, reported, Option.isSome_some]
  · rw [List.getLast?_concat, Option.bind_some, reported]
    rfl
  · rw [yielded_remember, numbers, List.length_append, ← remembers.samples, Value.isNumber]
    cases (derivation.evaluate snapshot).value.number? <;> rfl
  · rw [remember, Option.bind_some, lastNumber_evaluate, remembers.lastNumber, numbers]
    cases (derivation.evaluate snapshot).value.number? <;> simp

/-- The last metric handed out is remembered, with the count and the last of the
numbers. There is a last number exactly when the count is not zero. -/
theorem Remembers.last {name : String} {history : List Metrics} {derivation : Derivation}
    (remembers : derivation.Remembers name history) {metrics : Metrics}
    (last : history.getLast? = some metrics) :
    ∃ metric, metrics.get? name = some metric ∧ derivation.previous = some metric ∧
      metric.samples = (history.filterMap fun metrics => metrics.number? name).length ∧
      metric.lastNumber = (history.filterMap fun metrics => metrics.number? name).getLast? ∧
      (metric.lastNumber = none ↔ metric.samples = 0) := by
  obtain ⟨metric, reported⟩ := Option.isSome_iff_exists.mp
    (remembers.reported metrics (List.mem_of_getLast? last))
  have kept : derivation.previous = some metric := by
    rw [remembers.latest, last, Option.bind_some, reported]
  have samples := remembers.samples
  have lastNumber := remembers.lastNumber
  rw [yielded, kept] at samples
  rw [kept, Option.bind_some] at lastNumber
  refine ⟨metric, reported, kept, samples, lastNumber, ?_⟩
  rw [lastNumber, List.getLast?_eq_none_iff, ← List.length_eq_zero_iff, ← samples]
  rfl

/-- Nothing is remembered exactly when nothing was handed out, since each time
something was handed out for the name it was remembered. -/
theorem Remembers.previous_eq_none_iff {name : String} {history : List Metrics}
    {derivation : Derivation} (remembers : derivation.Remembers name history) :
    derivation.previous = none ↔ history = [] := by
  constructor
  · intro unused
    rw [← List.getLast?_eq_none_iff, Option.eq_none_iff_forall_ne_some]
    intro metrics last
    obtain ⟨metric, _, kept, _⟩ := remembers.last last
    rw [unused] at kept
    cases kept
  · rintro rfl
    exact remembers.latest

end Derivation

namespace Engine

/-- From its registration on, a derivation remembers what was handed out since
its last reset. Its turns are all that has to be looked at. -/
theorem remembers_run {engine : Engine} {name : String} {derivation : Derivation}
    (held : engine.derivation name = .ok derivation) (unused : derivation.previous = none)
    (calls : List Call) :
    ∃ final, (run calls engine).derivation name = .ok final ∧
      final.Remembers name (sinceReset (along perform (turns name) calls engine)) := by
  refine derivation_run (fun past derivation => derivation.Remembers name (sinceReset past))
    ?_ ?_ held (Derivation.remembers_nil unused) calls
  · intro past derivation snapshot metrics remembers reported _
    rw [sinceReset_derived]
    exact Derivation.remembers_derived remembers reported
  · intro past derivation _
    rw [sinceReset_reset]
    exact Derivation.remembers_nil rfl

section Names

/-- Only a registration adds a name, and at the end. Evaluating and resetting
keep the derivations where they stand. -/
theorem names_perform (engine : Engine) (call : Call) :
    (engine.perform call).derivationNames = engine.derivationNames ++ engine.introduced call := by
  unfold derivationNames
  rcases derivations_cases engine call with ⟨same, none, _⟩ | ⟨new, _, _, added, one, _⟩ |
    ⟨snapshot, _, moved, none, _⟩ | ⟨wanted, moved, none, _⟩
  · rw [same, none, List.append_nil]
  · rw [added, one, List.map_append, List.map_singleton]
  · rw [moved, none, List.append_nil, List.map_map]
    rfl
  · rw [moved, none, List.append_nil, map_forget fun _ => rfl]

/-- So after a run the names are those at its start, and behind them those
introduced on the way. -/
theorem names_run (calls : List Call) (engine : Engine) :
    (run calls engine).derivationNames =
      engine.derivationNames ++ along perform introduced calls engine :=
  shown_foldl derivationNames names_perform calls engine

/-- No two derivations share a name after a call if none did before, for a
registration is refused when its name is taken. -/
theorem derivationNames_nodup_perform {engine : Engine} (distinct : engine.derivationNames.Nodup)
    (call : Call) : (engine.perform call).derivationNames.Nodup := by
  rw [names_perform]
  rcases derivations_cases engine call with ⟨_, none, _⟩ | ⟨new, fresh, _, _, one, _⟩ |
    ⟨_, _, _, none, _⟩ | ⟨_, _, none, _⟩
  · rwa [none, List.append_nil]
  · rw [one, ← List.concat_eq_append]
    refine List.Nodup.concat ?_ distinct
    intro member
    obtain ⟨derivation, within, same⟩ := List.mem_map.mp member
    exact fresh derivation within same
  · rwa [none, List.append_nil]
  · rwa [none, List.append_nil]

/-- No two derivations share a name after any run from the empty engine. -/
theorem derivationNames_nodup_run (calls : List Call) : (run calls {}).derivationNames.Nodup :=
  List.foldlRecOn calls perform (motive := fun engine => engine.derivationNames.Nodup)
    List.nodup_nil fun _ distinct call _ => derivationNames_nodup_perform distinct call

end Names

section Finiteness

/-- Every number that an engine holds is finite. -/
def Finite (engine : Engine) : Prop :=
  ∀ derivation ∈ engine.derivations, ∀ metric, derivation.previous = some metric → metric.Finite

/-- A call keeps the numbers that an engine holds finite. What is new after it
was reported by an evaluation, and everything else was there before or has been
dropped. -/
theorem finite_perform {engine : Engine} (finite : engine.Finite) (call : Call) :
    (engine.perform call).Finite := by
  intro derivation member metric held
  rcases derivations_cases engine call with ⟨same, _⟩ | ⟨new, _, unused, added, _⟩ |
    ⟨snapshot, _, moved, _⟩ | ⟨wanted, moved, _⟩
  · rw [same] at member
    exact finite derivation member metric held
  · rw [added, List.mem_append, List.mem_singleton] at member
    rcases member with former | rfl
    · exact finite derivation former metric held
    · rw [unused] at held
      cases held
  · rw [moved] at member
    obtain ⟨former, within, rfl⟩ := List.mem_map.mp member
    obtain rfl : former.evaluate snapshot = metric := Option.some.inj held
    exact Derivation.finite_evaluate (finite former within) snapshot
  · rw [moved] at member
    rcases mem_forget member with former | ⟨former, _, rfl⟩
    · exact finite derivation former metric held
    · cases held

/-- Every number that an engine holds is finite after any run from the empty
one. -/
theorem finite_run (calls : List Call) : (run calls {}).Finite :=
  List.foldlRecOn calls perform (motive := Finite) (fun _ member => absurd member List.not_mem_nil)
    fun _ finite call _ => finite_perform finite call

end Finiteness

/-- What a recomputation hands out: one metric for each derivation, in the order
of their registration, with finite numbers only. -/
theorem recompute_lists {engine final : Engine} (finite : engine.Finite)
    (distinct : engine.derivationNames.Nodup) {snapshot : Snapshot} {metrics : Metrics}
    (derived : engine.recompute snapshot = .ok (metrics, final)) :
    metrics.metrics.map Metric.name = engine.derivationNames ∧
      (∀ metric ∈ metrics.metrics, metric.Finite) ∧
      ∀ derivation ∈ engine.derivations,
        metrics.get? derivation.name = some (derivation.evaluate snapshot) := by
  obtain ⟨_, rfl, _⟩ := recompute_eq_ok_iff.mp derived
  refine ⟨?_, ?_, ?_⟩
  · rw [List.map_map]
    rfl
  · intro metric member
    obtain ⟨derivation, within, rfl⟩ := List.mem_map.mp member
    exact Derivation.finite_evaluate (finite derivation within) snapshot
  · intro derivation member
    have found := (find?_eq_some_iff_mem distinct derivation.name derivation).mpr ⟨member, rfl⟩
    have searched := get?_metricsFor engine snapshot derivation.name
    rwa [found, Option.map_some] at searched

/-- From its registration on, and whatever calls follow, a derivation has a
previous metric exactly when a recomputation has succeeded since its
registration or its last reset, and then it is the metric handed out by the last
one. It counts the numbers handed out since, and holds the latest of them, if
there is any. At every point of every run, the numbers held and handed out are
finite, a formula's number that is not finite is handed out as undefined and not
counted, and a recomputation hands out one metric for each derivation in the
order of registration.

What is remembered follows the turns of the derivation, of which there are two
kinds. Finiteness and order are invariants of the whole engine. -/
theorem accumulators_kept {before : List Call} {name : String} {dependsOn : List String}
    {compute : Context → Value} {registered : Engine}
    (accepted : (run before {}).registerDerivation name dependsOn compute = .ok registered)
    (after : List Call) :
    let engine := run after registered
    let history := sinceReset (along perform (turns name) after registered)
    let numbers := history.filterMap fun metrics => metrics.number? name
    (engine.previous name = .ok none ↔ history = []) ∧
      (∀ metrics, history.getLast? = some metrics →
        ∃ metric, metrics.get? name = some metric ∧ engine.previous name = .ok (some metric) ∧
          metric.samples = numbers.length ∧ metric.lastNumber = numbers.getLast? ∧
          (metric.lastNumber = none ↔ metric.samples = 0)) ∧
      ∀ calls, let reached := run calls {}
        reached.derivationNames = along perform introduced calls {} ∧
        reached.derivationNames.Nodup ∧
          (∀ derivation ∈ reached.derivations, ∀ metric,
            derivation.previous = some metric → metric.Finite) ∧
          ∀ snapshot metrics final, reached.recompute snapshot = .ok (metrics, final) →
            metrics.metrics.map Metric.name = reached.derivationNames ∧
              (∀ metric ∈ metrics.metrics, metric.Finite) ∧
              ∀ derivation ∈ reached.derivations, ∀ number,
                derivation.compute (.view snapshot derivation.dependsOn derivation.previous) =
                  .number number →
                number.isFinite = false →
                ∃ metric, metrics.get? derivation.name = some metric ∧
                  metric.value = .undefined .nonFinite ∧ metric.samples = derivation.yielded := by
  intro engine history numbers
  obtain ⟨final, held, remembers⟩ :=
    remembers_run (derivation_of_registered accepted) rfl after
  have previous : engine.previous name = .ok final.previous := previous_of_derivation held
  refine ⟨?_, ?_, ?_⟩
  · rw [previous, Except.ok.injEq]
    exact remembers.previous_eq_none_iff
  · intro metrics last
    obtain ⟨metric, reported, kept, counted⟩ := remembers.last last
    exact ⟨metric, reported, by rw [previous, kept], counted⟩
  · intro calls reached
    have distinct := derivationNames_nodup_run calls
    have finite := finite_run calls
    refine ⟨names_run calls {}, distinct, finite, ?_⟩
    intro snapshot metrics after derived
    obtain ⟨names, proper, listed⟩ := recompute_lists finite distinct derived
    refine ⟨names, proper, ?_⟩
    intro derivation member number given infinite
    exact ⟨derivation.evaluate snapshot, listed derivation member,
      Derivation.evaluate_of_not_finite given infinite⟩

/-- A number, then one that is not finite, then a refused recomputation: one
number counts since the reset, and it is still held. -/
theorem accumulators_kept_probe :
    let compute : Context → Value := fun context => .number ((context.reading "probe").getD 0)
    let registered : Engine := { derivations := [⟨"copy", ["probe"], compute, none⟩] }
    let calls : List Call := [.recompute (.ofPairs 1 [("probe", 9)]), .resetDerivation "copy",
      .recompute (.ofPairs 2 [("probe", 4)]), .recompute (.ofPairs 3 [("probe", 1 / 0)]),
      .recompute (.ofPairs 4 [])]
    (run [] {}).registerDerivation "copy" ["probe"] compute = .ok registered ∧
      ∃ metric, (run calls registered).previous "copy" = .ok (some metric) ∧
        metric.samples = 1 ∧ metric.lastNumber = some 4 := by
  intro compute registered calls
  have accepted : (run [] {}).registerDerivation "copy" ["probe"] compute = .ok registered := rfl
  have ticks : (sinceReset (along perform (turns "copy") calls registered)).getLast?.map
    Metrics.tick = some 3 := by decide +kernel
  have numbers : ((sinceReset (along perform (turns "copy") calls registered)).filterMap
    fun metrics => metrics.number? "copy") = [4] := by decide +kernel
  obtain ⟨metrics, last, _⟩ := Option.map_eq_some_iff.mp ticks
  obtain ⟨metric, _, previous, samples, lastNumber, _⟩ :=
    (accumulators_kept accepted calls).2.1 metrics last
  rw [numbers] at samples lastNumber
  exact ⟨accepted, metric, previous, samples, lastNumber⟩

end Engine

end Telemetry
