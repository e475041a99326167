import Courier.Decimal.Double

/-!
# Durations

A duration is a whole number of nanoseconds that never exceeds the largest one: as
many seconds as sixty-four bits count, less one nanosecond more than that. All
arithmetic is exact on the nanoseconds and stops at the largest duration, so the
order of durations is the order of their nanoseconds.
-/

namespace Courier

/-- The nanoseconds of one second. -/
def nanosPerSecond : Nat := 1000000000

/-- The nanoseconds of the largest duration. -/
def maxNanos : Nat := (1 <<< 64) * nanosPerSecond - 1

/-- A span of time in nanoseconds. -/
structure Duration where
  nanos : Nat
  bounded : nanos ≤ maxNanos
  deriving DecidableEq

namespace Duration

/-- The duration of so many nanoseconds, stopping at the largest. -/
def ofNanos (n : Nat) : Duration := ⟨min n maxNanos, Nat.min_le_right _ _⟩

/-- The duration of so many milliseconds. -/
def ofMillis (n : Nat) : Duration := ofNanos (n * 1000000)

/-- The duration of so many seconds. -/
def ofSeconds (n : Nat) : Duration := ofNanos (n * nanosPerSecond)

/-- No time at all. -/
def zero : Duration := ofNanos 0

/-- The largest duration. -/
def max : Duration := ofNanos maxNanos

instance : Inhabited Duration := ⟨zero⟩

/-- The whole seconds. -/
def seconds (d : Duration) : Nat := d.nanos / nanosPerSecond

/-- The nanoseconds beyond the whole seconds. -/
def subsecond (d : Duration) : Nat := d.nanos % nanosPerSecond

/-- The whole milliseconds, as far as sixty-four bits count them. -/
def millis (d : Duration) : Nat := min (d.nanos / 1000000) 0xffffffffffffffff

/-- The milliseconds after which a wait of this length is over on a clock that
moves in whole milliseconds. -/
def ticks (d : Duration) : Nat := (d.nanos + 999999) / 1000000

/-- The product of two words, unless it exceeds a word. -/
def wordProduct? (a b : UInt64) : Option UInt64 :=
  if a.toNat * b.toNat < UInt64.size then some (a * b) else none

/-- The sum of two words, unless it exceeds a word. -/
def wordSum? (a b : UInt64) : Option UInt64 :=
  if a.toNat + b.toNat < UInt64.size then some (a + b) else none

/-- The nanoseconds beyond the whole seconds, multiplied in a word. -/
def scaledSubsecond (d : Duration) (factor : UInt32) : UInt64 :=
  UInt64.ofNat d.subsecond * factor.toUInt64

/-- The whole seconds multiplied, with those that the nanoseconds beyond them come to, unless
they exceed a word. -/
def scaledSeconds? (d : Duration) (factor : UInt32) : Option UInt64 :=
  (wordProduct? (UInt64.ofNat d.seconds) factor.toUInt64).bind fun seconds =>
    wordSum? seconds (d.scaledSubsecond factor / UInt64.ofNat nanosPerSecond)

/-- Multiply, stopping at the largest duration. The whole seconds and the nanoseconds beyond
them are multiplied apart, and what these carry over is added. -/
def scale (d : Duration) (factor : UInt32) : Duration :=
  match d.scaledSeconds? factor with
  | none => max
  | some seconds =>
    ofNanos (seconds.toNat * nanosPerSecond +
      (d.scaledSubsecond factor % UInt64.ofNat nanosPerSecond).toNat)

/-- The shorter of two durations. -/
def shorter (d e : Duration) : Duration := if d.nanos ≤ e.nanos then d else e

/-- The length in seconds as a double: whole seconds and the rest are rounded apart. -/
def toSeconds (d : Duration) : Float :=
  (UInt64.ofNat d.seconds).toFloat + (UInt64.ofNat d.subsecond).toFloat / 1000000000.0

/-- The duration nearest to a number of seconds, a tie going to the even nanosecond.
Negative numbers, numbers of more than sixty-four bits and what is no number fail. -/
def ofSeconds? (x : Float) : Option Duration :=
  match Decimal.Binary.ofFloat? x with
  | none => none
  | some b =>
    if b.negative ∧ b.significand ≠ 0 then none
    else
      let (numerator, denominator) := b.fraction
      if (1 <<< 64) * denominator ≤ numerator then none
      else some (ofNanos (Decimal.nearest (numerator * nanosPerSecond) denominator))

/-- A duration of some nanoseconds has as many, up to the longest. -/
theorem ofNanos_nanos (n : Nat) : (ofNanos n).nanos = min n maxNanos := rfl

/-- Durations of the same number of nanoseconds are the same. -/
@[ext] theorem ext (d e : Duration) (same : d.nanos = e.nanos) : d = e := by
  cases d; cases e; simp_all

/-- The shorter of two durations has the smaller number of nanoseconds. -/
theorem shorter_nanos (d e : Duration) : (d.shorter e).nanos = min d.nanos e.nanos := by
  unfold shorter
  split <;> omega

/-- The seconds of a duration fit in a word. -/
theorem seconds_lt (d : Duration) : d.seconds < UInt64.size := by
  have bounded := d.bounded
  unfold maxNanos nanosPerSecond at bounded
  unfold seconds nanosPerSecond UInt64.size
  omega

/-- What a duration has beyond its seconds is less than one second. -/
theorem subsecond_lt (d : Duration) : d.subsecond < nanosPerSecond :=
  Nat.mod_lt _ (by decide)

/-- The nanoseconds beyond the whole seconds never exceed a word when they are multiplied. -/
theorem scaledSubsecond_toNat (d : Duration) (factor : UInt32) :
    (d.scaledSubsecond factor).toNat = d.subsecond * factor.toNat := by
  have small := d.subsecond_lt
  have word : d.subsecond < UInt64.size := Nat.lt_trans small (by decide)
  have room : d.subsecond * factor.toNat < nanosPerSecond * UInt32.size :=
    Nat.mul_lt_mul'' small factor.toNat_lt
  rw [scaledSubsecond, UInt64.toNat_mul, UInt64.toNat_ofNat_of_lt' word, UInt32.toNat_toUInt64]
  exact Nat.mod_eq_of_lt (Nat.lt_trans room (by decide))

/-- A multiple is made of the multiples of the whole seconds and of the rest. -/
theorem nanos_mul (d : Duration) (n : Nat) :
    d.nanos * n = d.subsecond * n + nanosPerSecond * (d.seconds * n) := by
  conv => lhs; rw [← Nat.mod_add_div d.nanos nanosPerSecond, Nat.add_mul, Nat.mul_assoc]
  rfl

/-- The whole seconds of a multiple are found as long as they fit a word. -/
theorem scaledSeconds?_eq (d : Duration) (factor : UInt32) :
    d.scaledSeconds? factor =
      if d.nanos * factor.toNat / nanosPerSecond < UInt64.size then
        some (UInt64.ofNat (d.nanos * factor.toNat / nanosPerSecond))
      else none := by
  have whole : d.nanos * factor.toNat / nanosPerSecond =
      d.seconds * factor.toNat + d.subsecond * factor.toNat / nanosPerSecond := by
    rw [nanos_mul, Nat.add_mul_div_left _ _ (by decide), Nat.add_comm]
  have seconds : (UInt64.ofNat d.seconds).toNat = d.seconds :=
    UInt64.toNat_ofNat_of_lt' d.seconds_lt
  have carried : (d.scaledSubsecond factor / UInt64.ofNat nanosPerSecond).toNat =
      d.subsecond * factor.toNat / nanosPerSecond := by
    rw [UInt64.toNat_div, scaledSubsecond_toNat]
    rfl
  unfold scaledSeconds? wordProduct?
  rw [seconds, UInt32.toNat_toUInt64, whole]
  by_cases fits : d.seconds * factor.toNat < UInt64.size
  · have product : (UInt64.ofNat d.seconds * factor.toUInt64).toNat =
        d.seconds * factor.toNat := by
      rw [UInt64.toNat_mul, seconds, UInt32.toNat_toUInt64]
      exact Nat.mod_eq_of_lt fits
    rw [if_pos fits, Option.bind_some, wordSum?, product, carried]
    congr 2
    apply UInt64.toNat_inj.mp
    rw [UInt64.toNat_add, product, carried, UInt64.toNat_ofNat']
  · rw [if_neg fits, if_neg (by omega)]
    rfl

/-- Multiplying is exact on the nanoseconds up to the largest duration. -/
theorem scale_nanos (d : Duration) (factor : UInt32) :
    (d.scale factor).nanos = min (d.nanos * factor.toNat) maxNanos := by
  have limit : maxNanos + 1 = UInt64.size * nanosPerSecond := by decide
  have positive : 0 < nanosPerSecond := by decide
  have parts := Nat.div_add_mod' (d.nanos * factor.toNat) nanosPerSecond
  have rest := Nat.mod_lt (d.nanos * factor.toNat) positive
  have beyond : (d.scaledSubsecond factor % UInt64.ofNat nanosPerSecond).toNat =
      d.nanos * factor.toNat % nanosPerSecond := by
    rw [UInt64.toNat_mod, scaledSubsecond_toNat, nanos_mul, Nat.add_mul_mod_self_left]
    rfl
  unfold scale
  rw [scaledSeconds?_eq, beyond]
  by_cases fits : d.nanos * factor.toNat / nanosPerSecond < UInt64.size
  · rw [if_pos fits]
    dsimp only
    rw [UInt64.toNat_ofNat_of_lt' fits, parts, ofNanos_nanos]
  · rw [if_neg fits]
    have exceeded := Nat.mul_le_mul_right nanosPerSecond (Nat.le_of_not_lt fits)
    change min maxNanos maxNanos = _
    omega

end Duration

end Courier
