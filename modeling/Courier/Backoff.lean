import Courier.Duration
import Courier.Random.Stream

/-!
# Waiting between attempts

The delay doubles with every failed attempt, at most thirty times, and never exceeds
a fixed limit; without jitter it is exactly the smaller of the limit and the first
delay times that power of two. Jitter spreads it evenly over a fraction to either
side, again below the limit, and costs one random draw.
-/

namespace Courier

/-- How the delay grows. -/
structure Backoff where
  base : Duration
  limit : Duration
  jitter : Float
  deriving DecidableEq

namespace Backoff

/-- Half a second at first, ten seconds at most, spread by half. -/
def standard : Backoff := ⟨.ofMillis 500, .ofSeconds 10, 0.5⟩

/-- The number of doublings that still count. -/
def maxDoublings : Nat := 30

/-- What the first delay is multiplied by after so many failed attempts. -/
def factor (attempt : Nat) : UInt32 := 1 <<< UInt32.ofNat (min attempt maxDoublings)

/-- The delay after so many failed attempts, before it is spread. -/
def nominal (b : Backoff) (attempt : Nat) : Duration :=
  (b.base.scale (factor attempt)).shorter b.limit

/-- The fraction by which delays are spread, at most the whole. -/
def spread (b : Backoff) : Float :=
  if b.jitter < 0.0 then 0.0 else if 1.0 < b.jitter then 1.0 else b.jitter

/-- The delay spread by a ratio from zero up to one. A product that is no duration
leaves the delay as it was. -/
def spreadBy (b : Backoff) (nominal : Duration) (ratio : Float) : Duration :=
  let factor := 1.0 - b.spread + 2.0 * b.spread * ratio
  ((Duration.ofSeconds? (nominal.toSeconds * factor)).getD nominal).shorter b.limit

/-- The delay after so many failed attempts, drawing a ratio unless there is no jitter. -/
def delay (b : Backoff) (attempt : Nat) (random : Random.Stream) : Duration × Random.Stream :=
  if b.spread == 0.0 then (b.nominal attempt, random)
  else
    let (ratio, random) := random.ratio
    (b.spreadBy (b.nominal attempt) ratio, random)

end Backoff

end Courier
