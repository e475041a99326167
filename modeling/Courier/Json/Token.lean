/-!
# Tokens of JSON text

A token is a structural character, a literal, a number as it is spelled, or the
bytes between the quotes of a string. The scanner takes one byte at a time and
remembers only the tokens behind it and how far the current one has come, so a text
is scanned by a fold and a scan of two parts continues from the first.

Scanning checks spelling only: escapes need four hexadecimal digits but no matching
surrogate, strings need no valid UTF-8, and numbers may exceed every range. What a
token means is decided where a value is asked for.
-/

namespace Courier.Json

/-- A token of JSON text. -/
inductive Token where
  | openArray
  | closeArray
  | openObject
  | closeObject
  | colon
  | comma
  | null
  | bool (value : Bool)
  | number (lexeme : List UInt8)
  | string (raw : List UInt8)
  deriving DecidableEq

/-- The bytes of a text. -/
def bytesOf (text : String) : List UInt8 := text.toUTF8.data.toList

/-- The spelling of a token. -/
def Token.bytes : Token → List UInt8
  | openArray => bytesOf "["
  | closeArray => bytesOf "]"
  | openObject => bytesOf "\x7b"
  | closeObject => bytesOf "\x7d"
  | colon => bytesOf ":"
  | comma => bytesOf ","
  | null => bytesOf "null"
  | bool true => bytesOf "true"
  | bool false => bytesOf "false"
  | number lexeme => lexeme
  | string raw => 34 :: (raw ++ [34])

/-- Whether a byte is a decimal digit. -/
def isDigit (b : UInt8) : Bool := 48 ≤ b && b ≤ 57

/-- Whether a byte is a hexadecimal digit of either letter case. -/
def isHexDigit (b : UInt8) : Bool := isDigit b || (97 ≤ b && b ≤ 102) || (65 ≤ b && b ≤ 70)

/-- Whether a byte is blank between tokens. -/
def isBlank (b : UInt8) : Bool := b = 32 || b = 9 || b = 10 || b = 13

/-- How far the spelling of a number has come. -/
inductive NumberPart where
  | sign
  | zero
  | whole
  | point
  | fraction
  | mark
  | markSign
  | exponent
  deriving DecidableEq

/-- The part that a further byte leads to, if the number goes on. A leading zero
admits no further digit of the whole part. -/
def NumberPart.next? : NumberPart → UInt8 → Option NumberPart
  | .sign, b => if b = 48 then some .zero else if isDigit b then some .whole else none
  | .zero, b => if b = 46 then some .point else if b = 101 || b = 69 then some .mark else none
  | .whole, b =>
    if isDigit b then some .whole
    else if b = 46 then some .point
    else if b = 101 || b = 69 then some .mark
    else none
  | .point, b => if isDigit b then some .fraction else none
  | .fraction, b =>
    if isDigit b then some .fraction else if b = 101 || b = 69 then some .mark else none
  | .mark, b =>
    if b = 43 || b = 45 then some .markSign else if isDigit b then some .exponent else none
  | .markSign, b => if isDigit b then some .exponent else none
  | .exponent, b => if isDigit b then some .exponent else none

/-- Whether a number may end here. -/
def NumberPart.complete : NumberPart → Bool
  | .zero | .whole | .fraction | .exponent => true
  | _ => false

/-- What the scanner is in the middle of. Bytes are held latest first. -/
inductive Mode where
  | between
  | string (raw : List UInt8)
  | escape (raw : List UInt8)
  | unicode (raw : List UInt8) (left : Nat)
  | word (rest : List UInt8) (token : Token)
  | number (lexeme : List UInt8) (part : NumberPart)

/-- A scan under way: the tokens behind it, latest first, and the current mode. -/
structure Scan where
  tokens : List Token := []
  mode : Mode := .between

/-- Begin a token with its first byte, or pass a blank. -/
def Scan.begin (tokens : List Token) (b : UInt8) : Option Scan :=
  if isBlank b then some { tokens }
  else if b = 91 then some { tokens := .openArray :: tokens }
  else if b = 93 then some { tokens := .closeArray :: tokens }
  else if b = 123 then some { tokens := .openObject :: tokens }
  else if b = 125 then some { tokens := .closeObject :: tokens }
  else if b = 58 then some { tokens := .colon :: tokens }
  else if b = 44 then some { tokens := .comma :: tokens }
  else if b = 34 then some { tokens, mode := .string [] }
  else if b = 110 then some { tokens, mode := .word (bytesOf "ull") .null }
  else if b = 116 then some { tokens, mode := .word (bytesOf "rue") (.bool true) }
  else if b = 102 then some { tokens, mode := .word (bytesOf "alse") (.bool false) }
  else if b = 45 then some { tokens, mode := .number [b] .sign }
  else if b = 48 then some { tokens, mode := .number [b] .zero }
  else if isDigit b then some { tokens, mode := .number [b] .whole }
  else none

/-- Whether a byte may follow a backslash, the one that begins four digits aside. -/
def isEscape (b : UInt8) : Bool := [34, 92, 47, 98, 102, 110, 114, 116].contains b

/-- Take one byte. -/
def Scan.step (s : Scan) (b : UInt8) : Option Scan :=
  match s.mode with
  | .between => Scan.begin s.tokens b
  | .string raw =>
    if b = 34 then some { tokens := .string raw.reverse :: s.tokens }
    else if b = 92 then some { s with mode := .escape (b :: raw) }
    else if b < 32 then none
    else some { s with mode := .string (b :: raw) }
  | .escape raw =>
    if b = 117 then some { s with mode := .unicode (b :: raw) 4 }
    else if isEscape b then some { s with mode := .string (b :: raw) }
    else none
  | .unicode raw left =>
    if isHexDigit b then
      let mode := if left ≤ 1 then .string (b :: raw) else .unicode (b :: raw) (left - 1)
      some { s with mode }
    else none
  | .word rest token =>
    match rest with
    | [] => none
    | [last] => if b = last then some { tokens := token :: s.tokens } else none
    | expected :: rest => if b = expected then some { s with mode := .word rest token } else none
  | .number lexeme part =>
    match part.next? b with
    | some part => some { s with mode := .number (b :: lexeme) part }
    | none =>
      if part.complete then Scan.begin (.number lexeme.reverse :: s.tokens) b else none

/-- The tokens of a scan that ends here. -/
def Scan.finish (s : Scan) : Option (List Token) :=
  match s.mode with
  | .between => some s.tokens.reverse
  | .number lexeme part =>
    if part.complete then some (.number lexeme.reverse :: s.tokens).reverse else none
  | _ => none

/-- The tokens of a text, if every byte belongs to one or is blank. -/
def tokens? (text : List UInt8) : Option (List Token) :=
  (text.foldlM Scan.step ({} : Scan)).bind Scan.finish

end Courier.Json
