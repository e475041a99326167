/-!
# Doubles as exact numbers

A finite double is a sign, a natural significand and a power of two. The split is
read off the bits, so it is exact: subnormal significands carry no hidden bit, and
infinities and values that are not numbers have no split.
-/

namespace Courier.Decimal

/-- The number `significand * 2 ^ power`, negated when `negative`. -/
structure Binary where
  negative : Bool
  significand : Nat
  power : Int
  deriving DecidableEq

/-- The exact value of a double that is finite. -/
def Binary.ofFloat? (x : Float) : Option Binary :=
  let bits := x.toBits.toNat
  let negative := bits >>> 63 = 1
  let exponent := (bits >>> 52) % (1 <<< 11)
  let fraction := bits % (1 <<< 52)
  if exponent = 2047 then none
  else if exponent = 0 then some ⟨negative, fraction, -1074⟩
  else some ⟨negative, fraction + 1 <<< 52, Int.ofNat exponent - 1075⟩

/-- The magnitude as a fraction, numerator and positive denominator. -/
def Binary.fraction (b : Binary) : Nat × Nat :=
  if 0 ≤ b.power then (b.significand <<< b.power.toNat, 1)
  else (b.significand, 1 <<< (-b.power).toNat)

/-- The natural number nearest to a fraction; a half goes to the even neighbour. -/
def nearest (numerator denominator : Nat) : Nat :=
  let floor := numerator / denominator
  let rest := 2 * (numerator % denominator)
  if rest < denominator then floor
  else if denominator < rest then floor + 1
  else floor + floor % 2

/-- Rounding moves by at most half a unit. -/
theorem nearest_within_half (numerator denominator : Nat) (positive : 0 < denominator) :
    2 * numerator ≤ (2 * nearest numerator denominator + 1) * denominator ∧
      (2 * nearest numerator denominator - 1) * denominator ≤ 2 * numerator := by
  have split := Nat.div_add_mod numerator denominator
  have small := Nat.mod_lt numerator positive
  generalize quotient : numerator / denominator = q at split
  generalize remainder : numerator % denominator = r at split small
  have expand : denominator * q = q * denominator := Nat.mul_comm _ _
  unfold nearest
  simp only [quotient, remainder]
  split
  · constructor
    · rw [Nat.add_mul, Nat.mul_assoc, Nat.one_mul]; omega
    · rw [Nat.sub_mul, Nat.mul_assoc, Nat.one_mul]; omega
  · split
    · constructor
      · rw [Nat.add_mul, Nat.mul_assoc, Nat.add_mul, Nat.one_mul]; omega
      · rw [show 2 * (q + 1) - 1 = 2 * q + 1 by omega, Nat.add_mul, Nat.mul_assoc, Nat.one_mul]
        omega
    · rcases Nat.mod_two_eq_zero_or_one q with even | odd
      · simp only [even, Nat.add_zero]
        constructor
        · rw [Nat.add_mul, Nat.mul_assoc, Nat.one_mul]; omega
        · rw [Nat.sub_mul, Nat.mul_assoc, Nat.one_mul]; omega
      · simp only [odd]
        constructor
        · rw [Nat.add_mul, Nat.mul_assoc, Nat.add_mul, Nat.one_mul]; omega
        · rw [show 2 * (q + 1) - 1 = 2 * q + 1 by omega, Nat.add_mul, Nat.mul_assoc, Nat.one_mul]
          omega

end Courier.Decimal
