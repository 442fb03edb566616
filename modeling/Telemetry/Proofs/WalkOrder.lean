import Telemetry.Proofs.FloatValues
import Telemetry.Proofs.ListenerIndependence
import Telemetry.Proofs.StoreMap
import Telemetry.Proofs.WalkBounds

/-!
# The walk respects the order of readings

A step multiplies a factor by a step that is not negative, adds the reading and
clamps the sum. The factor is made of a draw, NaN included, and lies between -1
and 1, so the product does not overflow; the sum may, and the clamp takes an
infinity like any other number. Rounding respects the order, and so does each of
these operations. A reading that starts no higher, and is moved by factors that
are no larger, is therefore no higher after any number of ticks.

The factors -1 and 1 are the least and the greatest. So the ticks of any source
lead between those of the two constant sources: that is the limit on steps, with
rounding taken into account.
-/
namespace Telemetry.Number

variable {low high x : Float}

/-- Clamping is the same on values: the order of readings is that of their
values, so each comparison of the clamp comes out the same way. -/
theorem value_clamp (lowFinite : low.isFinite = true) (highFinite : high.isFinite = true)
    (ordered : low ≤ high) (comparable : x.isNaN = false) :
    value (clamp low high x) = max (value low) (min (value high) (value x)) := by
  have lowComparable := isNaN_of_isFinite lowFinite
  have highComparable := isNaN_of_isFinite highFinite
  rw [le_iff_value lowComparable highComparable] at ordered
  unfold clamp
  by_cases under : x < low
  · rw [if_pos under]
    rw [lt_iff_value comparable lowComparable] at under
    rw [min_eq_right (under.le.trans ordered), max_eq_left under.le]
  · rw [if_neg under]
    rw [lt_iff_value comparable lowComparable, not_lt] at under
    by_cases beyond : high < x
    · rw [if_pos beyond]
      rw [lt_iff_value highComparable comparable] at beyond
      rw [min_eq_left beyond.le, max_eq_right ordered]
    · rw [if_neg beyond]
      rw [lt_iff_value highComparable comparable, not_lt] at beyond
      rw [min_eq_right beyond, max_eq_right under]

end Telemetry.Number

namespace Telemetry

open Number

namespace Channel

/-- No draw makes a factor beyond -1 or 1. NaN makes the factor zero, and all
other draws are clamped. -/
theorem unitFactor_between (draw : Float) : -1 ≤ unitFactor draw ∧ unitFactor draw ≤ 1 := by
  unfold unitFactor
  cases comparable : draw.isNaN with
  | true => exact (by decide : (-1 : Float) ≤ 0 ∧ (0 : Float) ≤ 1)
  | false => exact (clamp_between (by decide) (by decide) (by decide) comparable).2

/-- The magnitude of a factor is at most one, as a number and not only as a
reading. -/
theorem abs_value_unitFactor (draw : Float) : |Number.value (unitFactor draw)| ≤ 1 := by
  have placed : rank (-1 : Float).toModel.unpack =
      rank (.finite .negative (2 ^ 52) (-52) (by norm_num)) := by decide
  have least : Number.value (-1) = -1 := by
    rw [Number.value, decodedValue_eq_of_rank_eq placed, decodedValue_finite, signed]
    norm_num
  have comparable := isNaN_of_isFinite (isFinite_unitFactor draw)
  obtain ⟨above, below⟩ := unitFactor_between draw
  rw [le_iff_value (by decide) comparable, least] at above
  rw [le_iff_value comparable (by decide), value_one] at below
  exact abs_le.mpr ⟨above, below⟩

/-- A factor times a finite step does not overflow: the exact product is no
longer than the step, and rounding respects the order. -/
theorem isFinite_move (draw : Float) {step : Float} (finite : step.isFinite = true) :
    (unitFactor draw * step).isFinite = true := by
  have factor := isFinite_unitFactor draw
  rw [isFinite_iff_value (isNaN_mul factor finite), value_mul factor finite, abs_rounded]
  have shorter : |Number.value (unitFactor draw) * Number.value step| ≤ |Number.value step| := by
    rw [abs_mul]
    exact mul_le_of_le_one_left (abs_nonneg _) (abs_value_unitFactor draw)
  calc rounded |Number.value (unitFactor draw) * Number.value step| ≤ rounded |Number.value step| :=
        rounded_mono shorter
    _ = |Number.value step| := by rw [← abs_rounded, rounded_value finite]
    _ < limit := abs_value_lt finite

/-- Where a step leads, on values. Each operation of the step is the exact one,
rounded once, and the clamp is a maximum and a minimum. -/
theorem value_step {channel : Channel} (bounded : channel.Bounded) (draw : Float) :
    Number.value (channel.step draw).value =
      max (Number.value channel.lower) (min (Number.value channel.upper)
        (rounded (Number.value channel.value +
          rounded (Number.value (unitFactor draw) * Number.value channel.maxStep)))) := by
  have moved := isFinite_move draw bounded.stepFinite
  have comparable := isNaN_add bounded.valueFinite (isNaN_of_isFinite moved)
  rw [← value_mul (isFinite_unitFactor draw) bounded.stepFinite,
    ← value_add bounded.valueFinite moved]
  exact value_clamp bounded.lowerFinite bounded.upperFinite bounded.ordered comparable

/-- Two channels with one declaration, of which the first does not read
higher. -/
structure Under (channel other : Channel) : Prop where
  declaration : channel.declaration = other.declaration
  value : channel.value ≤ other.value

/-- A factor that is no larger leads no higher. The step is not negative, so the
product keeps the order of the factors; the sum, the rounding and the clamp keep
it too. -/
theorem under_step {channel other : Channel} (bounded : channel.Bounded)
    (otherBounded : other.Bounded) (forward : ¬channel.maxStep < 0) (under : channel.Under other)
    {draw higher : Float} (ordered : unitFactor draw ≤ unitFactor higher) :
    (channel.step draw).Under (other.step higher) := by
  refine ⟨under.declaration, ?_⟩
  have same := under.declaration
  simp only [declaration, Prod.mk.injEq] at same
  obtain ⟨-, lower, upper, step⟩ := same
  have start : Number.value channel.value ≤ Number.value other.value :=
    (le_iff_value (isNaN_of_isFinite bounded.valueFinite)
      (isNaN_of_isFinite otherBounded.valueFinite)).mp under.value
  have factors : Number.value (unitFactor draw) ≤ Number.value (unitFactor higher) :=
    (le_iff_value (isNaN_of_isFinite (isFinite_unitFactor draw))
      (isNaN_of_isFinite (isFinite_unitFactor higher))).mp ordered
  have nonneg : 0 ≤ Number.value channel.maxStep := by
    rw [lt_iff_value (isNaN_of_isFinite bounded.stepFinite) (by decide), not_lt] at forward
    exact value_zero.symm.trans_le forward
  have after := bounded_step bounded draw
  have otherAfter := bounded_step otherBounded higher
  rw [le_iff_value (isNaN_of_isFinite after.valueFinite) (isNaN_of_isFinite otherAfter.valueFinite),
    value_step bounded, value_step otherBounded, ← lower, ← upper, ← step]
  apply max_le_max_left
  apply min_le_min_left
  apply rounded_mono
  exact add_le_add start (rounded_mono (mul_le_mul_of_nonneg_right factors nonneg))

end Channel

section Sources

variable {ρ τ : Type} [Source ρ] [Source τ]

/-- Draw by draw, the first source makes a factor that is no larger. -/
def Source.Under (source : ρ) (other : τ) : Prop :=
  ∀ position, Channel.unitFactor (Source.nth position source) ≤
    Channel.unitFactor (Source.nth position other)

/-- Sources in order make first factors in order. -/
theorem Source.Under.draw {source : ρ} {other : τ} (under : Source.Under source other) :
    Channel.unitFactor (Source.draw source).1 ≤ Channel.unitFactor (Source.draw other).1 :=
  under 0

/-- What is left of sources in order is in order: a later draw is the same draw
one place further on. -/
theorem Source.Under.later {source : ρ} {other : τ} (under : Source.Under source other) :
    Source.Under (Source.draw source).2 (Source.draw other).2 :=
  fun position => under (position + 1)

/-- A constant source yields the same draw at every place. -/
theorem Source.nth_fixed (source : Fixed) (position : Nat) :
    Source.nth position source = source.factor := by
  induction position with
  | zero => rfl
  | succ later inductionHypothesis => exact inductionHypothesis

/-- Every source lies between the constant draws -1 and 1, because no draw makes
a factor beyond these. -/
theorem Source.under_fixed (source : ρ) :
    Source.Under (⟨-1⟩ : Fixed) source ∧ Source.Under source (⟨1⟩ : Fixed) := by
  have least : Channel.unitFactor (-1) = -1 := by decide +kernel
  have greatest : Channel.unitFactor 1 = 1 := by decide +kernel
  constructor
  · intro position
    rw [Source.nth_fixed, least]
    exact (Channel.unitFactor_between _).1
  · intro position
    rw [Source.nth_fixed, greatest]
    exact (Channel.unitFactor_between _).2

end Sources

namespace Store

/-- No channel of the store may step backwards. -/
def Forward (store : Store) : Prop :=
  ∀ step ∈ store.channels.toList.map Channel.maxStep, ¬step < 0

/-- A largest step is checked at registration and never written again. So no
store that calls lead to has a channel that steps backwards. -/
theorem Reachable.forward {store : Store} (reachable : Reachable store) : store.Forward := by
  refine reachable.invariant ?_ ?_ ?_ ?_
  · exact List.forall_mem_nil _
  · intro store after spec forward registered
    obtain ⟨checked, -, rfl⟩ := register_eq_ok_iff.mp registered
    obtain ⟨-, -, -, -, -, -, -, stepForward⟩ := ChannelSpec.check_eq_ok_iff.mp checked
    intro step member
    rw [Array.toList_push, List.map_append, List.mem_append, List.map_singleton,
      List.mem_singleton] at member
    rcases member with former | rfl
    · exact forward step former
    · exact stepForward
  · intro ρ _ store source forward
    unfold Forward
    rw [show (store.tick source).1.channels.toList.map Channel.maxStep =
      store.channels.toList.map Channel.maxStep from map_walk (fun _ _ => rfl) _ source]
    exact forward
  · intro store after name value stored forward overridden
    unfold Forward
    rw [map_setValue (fun _ _ => rfl) overridden]
    exact forward

/-- Two stores with the same channels, of which the first reads no higher in any
of them. -/
def Under (store other : Store) : Prop :=
  List.Forall₂ Channel.Under store.channels.toList other.channels.toList

section Walk

variable {ρ τ : Type} [Source ρ] [Source τ]

/-- A walk keeps the order of the channels, and leaves sources in order. The
induction is on the channels, whose sources have been moved on by those
before. -/
theorem under_walk {channels others : List Channel} {source : ρ} {other : τ}
    (bounded : ∀ channel ∈ channels, channel.Bounded)
    (othersBounded : ∀ channel ∈ others, channel.Bounded)
    (forward : ∀ step ∈ channels.map Channel.maxStep, ¬step < 0)
    (under : List.Forall₂ Channel.Under channels others) (draws : Source.Under source other) :
    List.Forall₂ Channel.Under (walk channels source).1 (walk others other).1 ∧
      Source.Under (walk channels source).2 (walk others other).2 := by
  induction under generalizing source other with
  | nil => exact ⟨.nil, draws⟩
  | @cons channel higher rest higherRest first _ inductionHypothesis =>
    obtain ⟨moved, left⟩ := inductionHypothesis
      (fun channel member => bounded channel (List.mem_cons_of_mem _ member))
      (fun channel member => othersBounded channel (List.mem_cons_of_mem _ member))
      (fun step member => forward step (List.mem_cons_of_mem _ member)) draws.later
    refine ⟨.cons ?_ moved, left⟩
    exact Channel.under_step (bounded channel List.mem_cons_self)
      (othersBounded higher List.mem_cons_self) (forward _ List.mem_cons_self) first draws.draw

/-- A tick keeps the order between two stores. That their channels are bounded
is known because calls lead to them. -/
theorem under_tick {store higher : Store} {source : ρ} {other : τ} (reachable : Reachable store)
    (alsoReachable : Reachable higher) (under : store.Under higher)
    (draws : Source.Under source other) :
    (store.tick source).1.Under (higher.tick other).1 ∧
      Source.Under (store.tick source).2 (higher.tick other).2 :=
  under_walk reachable.bounded alsoReachable.bounded reachable.forward under draws

/-- The store and its source after so many ticks. -/
def ticked : Nat → Store → ρ → Store × ρ
  | 0, store, source => (store, source)
  | count + 1, store, source => ticked count (store.tick source).1 (store.tick source).2

/-- What one tick keeps, all ticks keep. The stores stay reachable on the way,
which is what one tick asks for. -/
theorem under_ticked (count : Nat) {store higher : Store} {source : ρ} {other : τ}
    (reachable : Reachable store) (alsoReachable : Reachable higher) (under : store.Under higher)
    (draws : Source.Under source other) :
    (ticked count store source).1.Under (ticked count higher other).1 := by
  induction count generalizing store higher source other with
  | zero => exact under
  | succ count inductionHypothesis =>
    obtain ⟨moved, left⟩ := under_tick reachable alsoReachable under draws
    exact inductionHypothesis (reachable.perform (.tick source))
      (alsoReachable.perform (.tick other)) moved left

end Walk

/-- A store is under itself, since its readings can be compared. -/
theorem Reachable.under_self {store : Store} (reachable : Reachable store) : store.Under store := by
  apply List.forall₂_same.mpr
  intro channel member
  exact ⟨rfl, le_self (isNaN_of_isFinite (reachable.bounded channel member).valueFinite)⟩

/-- Ticks keep the order between two stores with the same channels, if the draws
of their sources make factors in that order. So any source leads between the
constant draws -1 and 1.

A step of a channel is monotone in its reading and in its factor, rounding and
clamping included, so a tick is monotone in all of them, and ticks are by
induction. -/
theorem walk_monotone {ρ τ : Type} [Source ρ] [Source τ] {store higher : Store} {source : ρ}
    {other : τ} (reachable : Reachable store) (alsoReachable : Reachable higher)
    (under : store.Under higher) (draws : Source.Under source other) (count : Nat) :
    (ticked count store source).1.Under (ticked count higher other).1 ∧
      (ticked count store (⟨-1⟩ : Fixed)).1.Under (ticked count store source).1 ∧
      (ticked count store source).1.Under (ticked count store (⟨1⟩ : Fixed)).1 := by
  obtain ⟨least, greatest⟩ := Source.under_fixed source
  have itself := reachable.under_self
  exact ⟨under_ticked count reachable alsoReachable under draws,
    under_ticked count reachable reachable itself least,
    under_ticked count reachable reachable itself greatest⟩

/-- One oven is walked by NaN. The other starts hotter and is walked by 7, which
counts as 1. The cooler one stays below for all ticks. -/
theorem walk_monotone_ovens :
    let cool := run [.register ⟨"oven", 20, 0, 100, 5⟩] {}
    let hot := run [.register ⟨"oven", 50, 0, 100, 5⟩] {}
    cool.Under hot ∧ Source.Under (⟨0 / 0⟩ : Fixed) (⟨7⟩ : Fixed) ∧
      (ticked 12 cool (⟨0 / 0⟩ : Fixed)).1.Under (ticked 12 hot (⟨7⟩ : Fixed)).1 := by
  intro cool hot
  have channels (spec : ChannelSpec) (checked : spec.check = .ok ()) :
      (run [.register spec] {}).channels.toList = [.ofSpec spec] := by
    have registered := register_eq_ok_iff.mpr
      ⟨checked, (by simp [contains] : ({} : Store).contains spec.name = false), rfl⟩
    simp [run, perform, registered]
  have under : cool.Under hot := by
    unfold Under
    rw [channels _ (ChannelSpec.check_eq_ok_iff.mpr (by decide +kernel)),
      channels _ (ChannelSpec.check_eq_ok_iff.mpr (by decide +kernel))]
    refine .cons ⟨?_, ?_⟩ .nil
    · simp only [Channel.declaration, Channel.ofSpec]
    · simp only [Channel.ofSpec]
      decide +kernel
  have draws : Source.Under (⟨0 / 0⟩ : Fixed) (⟨7⟩ : Fixed) := by
    intro position
    rw [Source.nth_fixed, Source.nth_fixed]
    decide +kernel
  exact ⟨under, draws, (walk_monotone ⟨_, rfl⟩ ⟨_, rfl⟩ under draws 12).1⟩

end Store

end Telemetry
