import Courier.Decimal.Layout
import Courier.Json.Token

/-!
# Numbers of JSON text

A number without fraction and exponent whose digits fit sixty-four bits is an
integer: from zero to `2 ^ 64 - 1` without a sign, from `-1` down to `-2 ^ 63` with
one. Every other number is a double. Its digits are gathered as far as they fit
sixty-four bits, the digits beyond count as powers of ten or are dropped, and the
gathered integer is scaled by powers of ten, each step rounding once. Numbers that
exceed every double are refused.
-/

namespace Courier.Json

/-- The value of a number in JSON text. -/
inductive Number where
  | int (value : Int)
  | float (value : Float)
  deriving DecidableEq

/-- The largest integer that sixty-four bits hold. -/
def maxWord : Nat := 0xffffffffffffffff

/-- The least integer that sixty-four bits hold, without its sign. -/
def maxNegative : Nat := 0x8000000000000000

/-- The parts of a spelled number. -/
structure Numeral where
  negative : Bool
  whole : List UInt8
  fraction : List UInt8
  exponent : Option (Bool × List UInt8)
  deriving DecidableEq

/-- Take a spelled number apart. -/
def Numeral.ofLexeme (lexeme : List UInt8) : Numeral :=
  let (negative, rest) := match lexeme with
    | 45 :: rest => (true, rest)
    | other => (false, other)
  let whole := rest.takeWhile isDigit
  let rest := rest.dropWhile isDigit
  let (fraction, rest) := match rest with
    | 46 :: rest => (rest.takeWhile isDigit, rest.dropWhile isDigit)
    | other => ([], other)
  let exponent := match rest with
    | _ :: 45 :: digits => some (true, digits)
    | _ :: 43 :: digits => some (false, digits)
    | _ :: digits => some (false, digits)
    | [] => none
  ⟨negative, whole, fraction, exponent⟩

/-- Gather digits onto a number as long as it stays at most `limit`; the digits that
did not fit are returned. -/
def gather (limit : Nat) (gathered : Nat) : List UInt8 → Nat × List UInt8
  | [] => (gathered, [])
  | b :: rest =>
    let next := 10 * gathered + (b.toNat - 48)
    if next ≤ limit then gather limit next rest else (gathered, b :: rest)

/-- The double `10 ^ n`, for `n` up to 308. -/
def tenToThe (n : Nat) : Float := Float.ofScientific 1 false n

/-- Scale a double by a power of ten in steps of at most 308, each of which rounds
once; overflow is refused and a zero stays. `fuel` bounds the steps. -/
def scaleByTen : Nat → Float → Int → Option Float
  | fuel, x, power =>
    if power.natAbs ≤ 308 then
      if 0 ≤ power then
        let scaled := x * tenToThe power.natAbs
        if scaled.isInf then none else some scaled
      else some (x / tenToThe power.natAbs)
    else if x == 0.0 then some x
    else if 0 ≤ power then none
    else
      match fuel with
      | 0 => some 0.0
      | fuel + 1 => scaleByTen fuel (x / tenToThe 308) (power + 308)

/-- The double of an integer scaled by a power of ten. -/
def scaled (negative : Bool) (significand : Nat) (power : Int) : Option Number :=
  (scaleByTen 4 (UInt64.ofNat significand).toFloat power).map fun x =>
    .float (if negative then -x else x)

/-- The largest exponent that is counted digit by digit. -/
def maxExponent : Nat := 0x7fffffff

/-- The value of a spelled number, unless it exceeds every double. -/
def Numeral.value? (n : Numeral) : Option Number :=
  let (whole, beyond) := gather maxWord 0 n.whole
  if n.fraction.isEmpty ∧ n.exponent.isNone ∧ beyond.isEmpty then
    if n.negative then
      if whole = 0 ∨ maxNegative < whole then some (.float (-(UInt64.ofNat whole).toFloat))
      else some (.int (-whole))
    else some (.int whole)
  else
    let (significand, unread) := gather maxWord whole n.fraction
    let power : Int := beyond.length - (n.fraction.length - unread.length : Nat)
    match n.exponent with
    | none => scaled n.negative significand power
    | some (down, digits) =>
      let (exponent, excess) := gather maxExponent 0 digits
      if excess.isEmpty then
        scaled n.negative significand (if down then power - exponent else power + exponent)
      else if significand ≠ 0 ∧ !down then none
      else some (.float (if n.negative then -0.0 else 0.0))

/-- The value of a number token. -/
def Number.ofLexeme? (lexeme : List UInt8) : Option Number := (Numeral.ofLexeme lexeme).value?

/-- The spelling of an integer. -/
def intLexeme (value : Int) : List UInt8 :=
  (Decimal.signed (value < 0) (Decimal.digitsOf value.natAbs)).map fun c => UInt8.ofNat c.toNat

/-- The spelling of a number: integers by their digits, doubles by the fewest digits
that read back, always with a fraction or an exponent. -/
def Number.lexeme : Number → List UInt8
  | .int value => intLexeme value
  | .float value => (Decimal.marked value).map fun c => UInt8.ofNat c.toNat

end Courier.Json
