import Courier.Json.Number
import Courier.Json.Raw
import Courier.Json.Text

/-!
# JSON values

A value has its strings and numbers decoded. Objects are written in the order of
their members; a value read from free-form text has its members in the order of
their names, each name once, the last of repeated names winning.

Reading a value from a raw document is bounded in depth and strict: a string whose
escapes or bytes are no text, or a number beyond every double, is refused wherever
it stands.
-/

namespace Courier

/-- A JSON value. -/
inductive Json where
  | null
  | bool (value : Bool)
  | num (value : Json.Number)
  | str (value : String)
  | arr (items : List Json)
  | obj (members : List (String × Json))

namespace Json

instance : Inhabited Json := ⟨.null⟩

/-- The value of a natural number. -/
def ofNat (n : Nat) : Json := .num (.int n)

/-- The value of a text, or null. -/
def ofText? (text : Option String) : Json := (text.map Json.str).getD .null

/-- Keep the last of neighbouring members with one name. -/
def lastWins : List (String × Json) → List (String × Json)
  | [] => []
  | [member] => [member]
  | member :: next :: rest =>
    if member.1 = next.1 then lastWins (next :: rest) else member :: lastWins (next :: rest)

/-- Members in the order of their names, each name once. -/
def arrange (members : List (String × Json)) : List (String × Json) :=
  lastWins (members.mergeSort fun a b => decide (a.1 ≤ b.1))

mutual

/-- The value of a raw document with at most `depth` containers inside each other. -/
def ofRaw? (depth : Nat) : Raw → Option Json
  | .null => some .null
  | .bool value => some (.bool value)
  | .number lexeme => (Number.ofLexeme? lexeme).map .num
  | .string raw => (readText? raw).map .str
  | .array items =>
    match depth with
    | 0 => none
    | depth + 1 => (itemsOnto depth [] items).map .arr
  | .object members =>
    match depth with
    | 0 => none
    | depth + 1 => (membersOnto depth [] members).map fun members => .obj (arrange members)

/-- Read the items of an array behind those already read, held latest first. -/
def itemsOnto (depth : Nat) (read : List Json) : List Raw → Option (List Json)
  | [] => some read.reverse
  | item :: rest =>
    match ofRaw? depth item with
    | none => none
    | some value => itemsOnto depth (value :: read) rest

/-- Read the members of an object behind those already read, held latest first. -/
def membersOnto (depth : Nat) (read : List (String × Json)) :
    List (List UInt8 × Raw) → Option (List (String × Json))
  | [] => some read.reverse
  | (name, member) :: rest =>
    match readText? name, ofRaw? depth member with
    | some name, some value => membersOnto depth ((name, value) :: read) rest
    | _, _ => none

end

mutual

/-- The tokens of a value in front of tokens already gathered, held latest first. -/
def tokensOnto (gathered : List Token) : Json → List Token
  | .null => .null :: gathered
  | .bool value => .bool value :: gathered
  | .num value => .number value.lexeme :: gathered
  | .str value => .string (escapeText value) :: gathered
  | .arr items => .closeArray :: itemTokensOnto (.openArray :: gathered) true items
  | .obj members => .closeObject :: memberTokensOnto (.openObject :: gathered) true members

/-- The tokens of the items of an array, separated by commas. -/
def itemTokensOnto (gathered : List Token) (first : Bool) : List Json → List Token
  | [] => gathered
  | item :: rest =>
    itemTokensOnto (tokensOnto (if first then gathered else .comma :: gathered) item) false rest

/-- The tokens of the members of an object, separated by commas. -/
def memberTokensOnto (gathered : List Token) (first : Bool) :
    List (String × Json) → List Token
  | [] => gathered
  | (name, member) :: rest =>
    let gathered := if first then gathered else .comma :: gathered
    let named := .colon :: .string (escapeText name) :: gathered
    memberTokensOnto (tokensOnto named member) false rest

end

/-- The tokens of a value in order. -/
def tokens (value : Json) : List Token := (tokensOnto [] value).reverse

/-- The text of a value, without blanks. -/
def render (value : Json) : List UInt8 := value.tokens.flatMap Token.bytes

/-- The deepest nesting that is read from text. -/
def maxDepth : Nat := 127

/-- The value that a text spells. -/
def parse? (text : List UInt8) : Option Json := (Raw.parse? text).bind (ofRaw? maxDepth)

/-- The member of an object with the given name. -/
def member? (name : String) : Json → Option Json
  | .obj members => (members.find? fun member => member.1 = name).map (·.2)
  | _ => none

end Json

end Courier
