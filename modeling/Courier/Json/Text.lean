import Courier.Json.Token
import Courier.Text.Hex

/-!
# The contents of JSON strings

Writing escapes the quote, the backslash and the control characters and leaves all
else as it is. Reading undoes every escape; an escape of sixteen bits that is one
half of a pair must be followed by the other half, and what results must be UTF-8.
-/

namespace Courier.Json

/-- The bytes of one character. -/
def charBytes (c : Char) : List UInt8 := String.utf8EncodeChar c

/-- The spelling of one character inside a string. -/
def escapeChar (c : Char) : List UInt8 :=
  if c = '"' then [92, 34]
  else if c = '\\' then [92, 92]
  else if c.toNat = 8 then [92, 98]
  else if c.toNat = 12 then [92, 102]
  else if c.toNat = 10 then [92, 110]
  else if c.toNat = 13 then [92, 114]
  else if c.toNat = 9 then [92, 116]
  else if c.toNat < 32 then
    [92, 117] ++ ((Hex.ofNat 4 c.toNat).flatMap charBytes)
  else charBytes c

/-- The spelling of a text between the quotes. -/
def escapeText (text : String) : List UInt8 := text.toList.flatMap escapeChar

/-- The value of a hexadecimal digit. -/
def hexValue? (b : UInt8) : Option Nat := Hex.value? (Char.ofNat b.toNat)

/-- The number that four digits spell. -/
def hexQuad? (a b c d : UInt8) : Option Nat :=
  match hexValue? a, hexValue? b, hexValue? c, hexValue? d with
  | some a, some b, some c, some d => some (((a * 16 + b) * 16 + c) * 16 + d)
  | _, _, _, _ => none

/-- The byte that a single-letter escape stands for. -/
def escapeValue? (b : UInt8) : Option UInt8 :=
  if b = 34 || b = 92 || b = 47 then some b
  else if b = 98 then some 8
  else if b = 102 then some 12
  else if b = 110 then some 10
  else if b = 114 then some 13
  else if b = 116 then some 9
  else none

/-- Undo the escapes behind the bytes already undone, which are held latest first. -/
def unescapeOnto (undone : List UInt8) : List UInt8 → Option (List UInt8)
  | [] => some undone.reverse
  | 92 :: 117 :: a :: b :: c :: d :: rest =>
    match hexQuad? a b c d with
    | none => none
    | some high =>
      if 0xdc00 ≤ high ∧ high ≤ 0xdfff then none
      else if 0xd800 ≤ high ∧ high ≤ 0xdbff then
        match rest with
        | 92 :: 117 :: a :: b :: c :: d :: rest =>
          match hexQuad? a b c d with
          | none => none
          | some low =>
            if 0xdc00 ≤ low ∧ low ≤ 0xdfff then
              let point := (high - 0xd800) * 1024 + (low - 0xdc00) + 0x10000
              unescapeOnto ((charBytes (Char.ofNat point)).reverse ++ undone) rest
            else none
        | _ => none
      else unescapeOnto ((charBytes (Char.ofNat high)).reverse ++ undone) rest
  | 92 :: b :: rest =>
    match escapeValue? b with
    | none => none
    | some value => unescapeOnto (value :: undone) rest
  | b :: rest => if b = 92 then none else unescapeOnto (b :: undone) rest

/-- The text of a byte sequence that is UTF-8. -/
def textOf? (bytes : List UInt8) : Option String := String.fromUTF8? bytes.toByteArray

/-- The text that the bytes between the quotes spell. -/
def readText? (raw : List UInt8) : Option String := (unescapeOnto [] raw).bind textOf?

end Courier.Json
