import Courier.Json.Token

/-!
# The shape of JSON text

A raw document has the structure of the text and keeps its strings and numbers as
spelled, its members in order and repeated names too. It is built from the tokens
one at a time; open containers wait on a stack, so nesting of any depth costs no
more than the text that opens it.
-/

namespace Courier.Json

/-- A document whose leaves are still as spelled. -/
inductive Raw where
  | null
  | bool (value : Bool)
  | number (lexeme : List UInt8)
  | string (raw : List UInt8)
  | array (items : List Raw)
  | object (members : List (List UInt8 × Raw))

/-- A container that waits for a value, with what it holds latest first. -/
inductive Frame where
  | array (items : List Raw)
  | object (members : List (List UInt8 × Raw)) (name : List UInt8)

/-- What may follow the tokens taken so far. -/
inductive Builder where
  | awaiting (stack : List Frame)
  | firstItem (stack : List Frame)
  | afterItem (items : List Raw) (stack : List Frame)
  | firstName (stack : List Frame)
  | nextName (members : List (List UInt8 × Raw)) (stack : List Frame)
  | colon (members : List (List UInt8 × Raw)) (name : List UInt8) (stack : List Frame)
  | afterMember (members : List (List UInt8 × Raw)) (stack : List Frame)
  | finished (value : Raw)

namespace Builder

/-- Hand a finished value to the innermost open container. -/
def give (value : Raw) : List Frame → Builder
  | [] => finished value
  | .array items :: stack => afterItem (value :: items) stack
  | .object members name :: stack => afterMember ((name, value) :: members) stack

/-- Begin a value with its first token. -/
def start (stack : List Frame) : Token → Option Builder
  | .null => some (give .null stack)
  | .bool value => some (give (.bool value) stack)
  | .number lexeme => some (give (.number lexeme) stack)
  | .string raw => some (give (.string raw) stack)
  | .openArray => some (firstItem stack)
  | .openObject => some (firstName stack)
  | _ => none

/-- Take one token. -/
def push : Builder → Token → Option Builder
  | awaiting stack, token => start stack token
  | firstItem stack, .closeArray => some (give (.array []) stack)
  | firstItem stack, token => start (.array [] :: stack) token
  | afterItem items stack, .comma => some (awaiting (.array items :: stack))
  | afterItem items stack, .closeArray => some (give (.array items.reverse) stack)
  | firstName stack, .closeObject => some (give (.object []) stack)
  | firstName stack, .string name => some (colon [] name stack)
  | nextName members stack, .string name => some (colon members name stack)
  | colon members name stack, .colon => some (awaiting (.object members name :: stack))
  | afterMember members stack, .comma => some (nextName members stack)
  | afterMember members stack, .closeObject => some (give (.object members.reverse) stack)
  | _, _ => none

/-- The document, when nothing is missing. -/
def finish : Builder → Option Raw
  | finished value => some value
  | _ => none

end Builder

/-- The document that a sequence of tokens spells. -/
def Raw.ofTokens? (tokens : List Token) : Option Raw :=
  (tokens.foldlM Builder.push (.awaiting [])).bind Builder.finish

/-- The document that a text spells. -/
def Raw.parse? (text : List UInt8) : Option Raw := (tokens? text).bind Raw.ofTokens?

end Courier.Json
