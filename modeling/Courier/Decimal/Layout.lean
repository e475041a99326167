import Courier.Decimal.Shortest

/-!
# Decimal text of doubles

The digits are always the fewest that read back. Two layouts place the point:
`plain` never writes an exponent and leaves out an empty fraction; `marked` always
shows that the number is a double, by a fraction or by an exponent, and turns to an
exponent for very large and very small magnitudes.
-/

namespace Courier.Decimal

/-- The decimal digits of a natural number. -/
def digitsOf (n : Nat) : List Char := Nat.toDigits 10 n

/-- Digits with the point moved `places` to the right of the first digit's left
edge, so `places = 1` leaves one digit in front. Nothing follows an empty fraction. -/
def placePoint (digits : List Char) (places : Int) : List Char :=
  if places ≤ 0 then ['0', '.'] ++ List.replicate (-places).toNat '0' ++ digits
  else if (digits.length : Int) ≤ places then
    digits ++ List.replicate (places.toNat - digits.length) '0'
  else digits.take places.toNat ++ ['.'] ++ digits.drop places.toNat

/-- A sign for negative doubles, the zero with its sign bit set among them. -/
def signed (negative : Bool) (magnitude : List Char) : List Char :=
  if negative then '-' :: magnitude else magnitude

/-- The number of places in front of the point. -/
def Scaled.places (s : Scaled) (digits : List Char) : Int := digits.length + s.power

/-- A double without an exponent and without an empty fraction. -/
def plain (x : Float) : List Char :=
  match Binary.ofFloat? x with
  | none => if x.isNaN then "NaN".toList else signed (x < 0) "inf".toList
  | some b =>
    if b.significand = 0 then signed b.negative ['0']
    else
      let s := shortest b
      signed b.negative (placePoint (digitsOf s.digits) (s.places (digitsOf s.digits)))

/-- Digits with a point behind the first of several and a power of ten. -/
def scientific (digits : List Char) (places : Int) : List Char :=
  let fraction := digits.drop 1
  let power := places - 1
  digits.take 1 ++ (if fraction.isEmpty then [] else '.' :: fraction) ++
    'e' :: signed (power < 0) (digitsOf power.natAbs)

/-- A finite double that always reads as one: magnitudes from `10 ^ -5` up to
`10 ^ 16` are placed with at least one digit behind the point, others take an exponent. -/
def marked (x : Float) : List Char :=
  match Binary.ofFloat? x with
  | none => "null".toList
  | some b =>
    if b.significand = 0 then signed b.negative "0.0".toList
    else
      let s := shortest b
      let digits := digitsOf s.digits
      let places := s.places digits
      signed b.negative <|
        if -5 < places ∧ places ≤ 16 then
          placePoint digits places ++ (if (digits.length : Int) ≤ places then ['.', '0'] else [])
        else scientific digits places

end Courier.Decimal
