import Courier.Decimal.Double

/-!
# The fewest digits that read back

Every double is the nearest one to all numbers of an interval around it, whose ends
belong to it exactly when the significand is even. Among the decimals of the
interval with the fewest digits, `shortest` picks the one nearest to the double.

The search walks the decimal grids from one digit to seventeen. On each grid only
the two neighbours of the value can be the nearest point of the interval, and
seventeen digits always suffice.
-/

namespace Courier.Decimal

/-- The number `digits * 10 ^ power`. -/
structure Scaled where
  digits : Nat
  power : Int
  deriving DecidableEq

/-- The numbers that round to a positive value: the value and both ends over one
denominator, and whether the ends count. -/
structure Interval where
  low : Nat
  value : Nat
  high : Nat
  denominator : Nat
  closed : Bool

/-- The interval of a positive double. Below a power of two the gap is half as wide. -/
def Interval.ofBinary (b : Binary) : Interval :=
  let narrow := b.significand = 1 <<< 52 ∧ -1074 < b.power
  let low := 4 * b.significand - (if narrow then 1 else 2)
  let (up, down) :=
    if 2 ≤ b.power then (1 <<< (b.power - 2).toNat, 1) else (1, 1 <<< (2 - b.power).toNat)
  { low := low * up, value := 4 * b.significand * up, high := (4 * b.significand + 2) * up
    denominator := down, closed := b.significand % 2 = 0 }

/-- Whether the fraction `numerator / denominator` rounds to the value. -/
def Interval.holds (i : Interval) (numerator denominator : Nat) : Bool :=
  let here := numerator * i.denominator
  let low := i.low * denominator
  let high := i.high * denominator
  if i.closed then low ≤ here && here ≤ high else low < here && here < high

/-- The number of decimal digits of a positive number, zero for zero. -/
def digitCount (n : Nat) : Nat := if n = 0 then 0 else (Nat.toDigits 10 n).length

/-- The power of ten just above the value: the least `p` with `value < 10 ^ p`. -/
def Interval.magnitude (i : Interval) : Int :=
  (digitCount (i.value * Nat.pow 10 400 / i.denominator) : Int) - 400

/-- The fraction that a decimal stands for. -/
def Scaled.fraction (s : Scaled) : Nat × Nat :=
  if 0 ≤ s.power then (s.digits * Nat.pow 10 s.power.toNat, 1)
  else (s.digits, Nat.pow 10 (-s.power).toNat)

/-- Whether a decimal rounds to the value. -/
def Interval.holdsScaled (i : Interval) (s : Scaled) : Bool :=
  i.holds s.fraction.1 s.fraction.2

/-- The decimals next to the value on the grid of the given power of ten, the
nearer first; a tie puts the even digits first. -/
def Interval.neighbours (i : Interval) (power : Int) : List Scaled :=
  let (numerator, denominator) :=
    if 0 ≤ power then (i.value, i.denominator * Nat.pow 10 power.toNat)
    else (i.value * Nat.pow 10 (-power).toNat, i.denominator)
  let floor := numerator / denominator
  let rest := 2 * (numerator % denominator)
  let below : Scaled := ⟨floor, power⟩
  let above : Scaled := ⟨floor + 1, power⟩
  if rest < denominator || (rest = denominator && floor % 2 = 0) then [below, above]
  else [above, below]

/-- The nearest decimal of the coarsest grid that holds one, trying at most
`fuel` grids and at last the grid itself. -/
def Interval.search (i : Interval) : Nat → Int → Scaled
  | 0, power => (i.neighbours power).headD ⟨0, 0⟩
  | fuel + 1, power =>
    match (i.neighbours power).find? i.holdsScaled with
    | some found => found
    | none => i.search fuel (power - 1)

/-- Move trailing zeros of the digits into the power, at most `fuel` of them. -/
def Scaled.trim : Nat → Scaled → Scaled
  | 0, s => s
  | fuel + 1, s =>
    if s.digits ≠ 0 ∧ s.digits % 10 = 0 then Scaled.trim fuel ⟨s.digits / 10, s.power + 1⟩
    else s

/-- The shortest decimal that reads back as the magnitude of the double, without
trailing zeros in its digits. Zero has the digits zero. -/
def shortest (b : Binary) : Scaled :=
  if b.significand = 0 then ⟨0, 0⟩
  else
    let i := Interval.ofBinary b
    (i.search 17 (i.magnitude - 1)).trim 20

end Courier.Decimal
