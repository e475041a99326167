import Courier.Backoff
import Mathlib.Algebra.Group.Nat.Defs

/-!
# How long to wait

The delay between two attempts is worked out in words: the first delay is multiplied by a power
of two, seconds and nanoseconds apart, and cut where durations end before the limit is applied.
Here it is the smaller of the limit and the plain product, in nanoseconds and at all sizes, and
everything else follows from that. Spreading a delay goes through doubles, of which nothing needs
to be known: whatever comes of them, the limit is applied last. Only that a jitter equal to zero
is not spread takes a look at doubles themselves.
-/

namespace Courier

section Doubles

/-- A double that equals zero is one of the two zeros. -/
theorem unpack_of_zero (x : Float) (zero : x == 0.0) :
    ∃ sign, x.toModel.unpack = .zero sign := by
  have same : Float.Model.UnpackedFloat.compare x.toModel.unpack (.zero .positive) = some .eq :=
    eq_of_beq zero
  cases found : x.toModel.unpack with
  | zero sign => exact ⟨sign, rfl⟩
  | infinity sign =>
    rw [found] at same
    cases sign <;> cases same
  | notANumber =>
    rw [found] at same
    cases same
  | finite sign _ _ _ =>
    rw [found] at same
    cases sign <;> cases same

/-- A jitter equal to zero is not above one. -/
theorem not_one_lt_zero (x : Float) (zero : x == 0.0) : ¬ 1.0 < x := by
  obtain ⟨sign, found⟩ := unpack_of_zero x zero
  intro above
  have greater : Float.Model.UnpackedFloat.lt (1.0 : Float).toModel.unpack x.toModel.unpack =
      true := of_decide_eq_true above
  rw [found] at greater
  cases sign
  case positive => exact absurd greater (by decide)
  case negative => exact absurd greater (by decide)

end Doubles

namespace Backoff

/-- The delay is multiplied by a power of two that a word holds. -/
theorem factor_toNat (attempt : Nat) :
    (factor attempt).toNat = 2 ^ min attempt maxDoublings := by
  have few : min attempt maxDoublings ≤ 30 := Nat.min_le_right attempt maxDoublings
  unfold factor
  generalize min attempt maxDoublings = doublings at few
  have places : (UInt32.ofNat doublings).toNat % 32 = doublings := by
    rw [UInt32.toNat_ofNat_of_lt' (Nat.lt_of_le_of_lt few (by decide))]
    omega
  have fits : 2 ^ doublings < 2 ^ 32 := Nat.pow_lt_pow_right (by decide) (by omega)
  rw [UInt32.toNat_shiftLeft, places, UInt32.toNat_one, Nat.one_shiftLeft, Nat.mod_eq_of_lt fits]

variable (b : Backoff)

/-- The delay is the plain product, up to the limit. -/
theorem nominal_nanos (attempt : Nat) :
    (b.nominal attempt).nanos =
      min b.limit.nanos (b.base.nanos * 2 ^ min attempt maxDoublings) := by
  have bounded := b.limit.bounded
  rw [nominal, Duration.shorter_nanos, Duration.scale_nanos, factor_toNat]
  omega

/-- The delay never gets shorter. -/
theorem nominal_grows (earlier later : Nat) (onward : earlier ≤ later) :
    (b.nominal earlier).nanos ≤ (b.nominal later).nanos := by
  have doublings : min earlier maxDoublings ≤ min later maxDoublings := by omega
  have power := Nat.pow_le_pow_right (by decide : 0 < 2) doublings
  have product := Nat.mul_le_mul_left b.base.nanos power
  rw [nominal_nanos, nominal_nanos]
  omega

/-- Where as many doublings as are made reach the limit, those that are not make no difference. -/
theorem nominal_unclamped (reached : b.limit.nanos ≤ b.base.nanos * 2 ^ maxDoublings)
    (attempt : Nat) :
    (b.nominal attempt).nanos = min b.limit.nanos (b.base.nanos * 2 ^ attempt) := by
  rw [nominal_nanos]
  rcases Nat.le_total attempt maxDoublings with few | many
  · rw [Nat.min_eq_left few]
  · have power := Nat.pow_le_pow_right (by decide : 0 < 2) many
    have product := Nat.mul_le_mul_left b.base.nanos power
    rw [Nat.min_eq_right many, Nat.min_eq_left reached,
      Nat.min_eq_left (Nat.le_trans reached product)]

/-- A delay that was spread is within the limit. -/
theorem spreadBy_limited (nominal : Duration) (ratio : Float) :
    (b.spreadBy nominal ratio).nanos ≤ b.limit.nanos := by
  rw [spreadBy, Duration.shorter_nanos]
  exact Nat.min_le_right _ _

/-- A plain delay is within the limit. -/
theorem nominal_limited (attempt : Nat) : (b.nominal attempt).nanos ≤ b.limit.nanos := by
  rw [nominal_nanos]
  exact Nat.min_le_left _ _

/-- Every delay is within the limit. -/
theorem delay_limited (attempt : Nat) (random : Random.Stream) :
    (b.delay attempt random).1.nanos ≤ b.limit.nanos := by
  unfold delay
  split
  · exact b.nominal_limited attempt
  · exact b.spreadBy_limited _ _

/-- A jitter equal to zero spreads nothing. -/
theorem spread_zero (none : b.jitter == 0.0) : (b.spread == 0.0) = true := by
  unfold spread
  split
  · decide
  · rw [if_neg (not_one_lt_zero b.jitter none), none]

/-- Without a jitter the delay is the plain one, and no random number is drawn. -/
theorem delay_unspread (none : b.jitter == 0.0) (attempt : Nat) (random : Random.Stream) :
    b.delay attempt random = (b.nominal attempt, random) := by
  rw [delay, if_pos (b.spread_zero none)]

/-- How long a backoff waits, in nanoseconds. -/
structure Exact (b : Backoff) : Prop where
  /-- No word overflows on the way: neither the power of two, nor the nanoseconds beyond the whole
  seconds when they are multiplied by it. -/
  words : ∀ attempt, (factor attempt).toNat = 2 ^ min attempt maxDoublings ∧
    (b.base.scaledSubsecond (factor attempt)).toNat =
      b.base.subsecond * 2 ^ min attempt maxDoublings
  /-- The delay is the smaller of the limit and the plain product. -/
  plain : ∀ attempt, (b.nominal attempt).nanos =
    min b.limit.nanos (b.base.nanos * 2 ^ min attempt maxDoublings)
  grows : ∀ earlier later, earlier ≤ later →
    (b.nominal earlier).nanos ≤ (b.nominal later).nanos
  limited : ∀ attempt, (b.nominal attempt).nanos ≤ b.limit.nanos
  /-- If the doublings that are made reach the limit, those that are not would change nothing. -/
  unclamped : b.limit.nanos ≤ b.base.nanos * 2 ^ maxDoublings → ∀ attempt,
    (b.nominal attempt).nanos = min b.limit.nanos (b.base.nanos * 2 ^ attempt)
  /-- By whatever ratio a delay is spread, it stays within the limit. -/
  spread : ∀ nominal ratio, (b.spreadBy nominal ratio).nanos ≤ b.limit.nanos
  drawn : ∀ attempt random, (b.delay attempt random).1.nanos ≤ b.limit.nanos
  /-- Without jitter a delay is not spread, and nothing is drawn. -/
  unspread : b.jitter == 0.0 → ∀ attempt random,
    b.delay attempt random = (b.nominal attempt, random)

/-- The delays of every backoff are exact. -/
theorem delays_exact : b.Exact where
  words attempt := by
    refine ⟨factor_toNat attempt, ?_⟩
    rw [Duration.scaledSubsecond_toNat, factor_toNat]
  plain := b.nominal_nanos
  grows := b.nominal_grows
  limited := b.nominal_limited
  unclamped := b.nominal_unclamped
  spread := b.spreadBy_limited
  drawn := b.delay_limited
  unspread := b.delay_unspread

/-- A quarter of all durations less a nanosecond, which the limit does not cut. -/
def vast : Backoff := ⟨.ofNanos ((1 <<< 62) * nanosPerSecond - 1), .max, 0.0⟩

/-- Doubled twice it is still a duration, with three seconds carried over from its nanoseconds.
Doubled three times it is cut where durations end. -/
theorem vast_cut : vast.limit.nanos ≤ vast.base.nanos * 2 ^ maxDoublings ∧
    (vast.jitter == 0.0) = true ∧ (vast.nominal 2).nanos = maxNanos - 3 ∧
      (vast.nominal 3).nanos = maxNanos ∧ (vast.nominal 2).nanos ≤ (vast.nominal 3).nanos ∧
        vast.delay 3 (.ofSeed 0) = (vast.nominal 3, .ofSeed 0) := by
  have delays := delays_exact vast
  have reached : vast.limit.nanos ≤ vast.base.nanos * 2 ^ maxDoublings := by decide
  have none : (vast.jitter == 0.0) = true := by decide
  have twice : (vast.nominal 2).nanos = maxNanos - 3 := by
    rw [delays.unclamped reached 2]
    decide
  have thrice : (vast.nominal 3).nanos = maxNanos := by
    rw [delays.unclamped reached 3]
    decide
  exact ⟨reached, none, twice, thrice, delays.grows 2 3 (by decide), delays.unspread none 3 _⟩

end Backoff

end Courier
