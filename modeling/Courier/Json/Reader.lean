import Courier.Json.Value

/-!
# Reading typed records

Records are read alike from raw text and from values. `Look` shows the outermost
layer of either; a leaf of raw text that has no value shows as `unreadable`, which no
reader accepts and which does no harm where it is ignored.

A record is an object of named fields or an array of its fields in order. An object
may hold further members, of which only the spelling matters, but no known name
twice. An array may stop early in front of fields that have a default, and must not
go on behind the last field.
-/

namespace Courier.Json

/-- The outermost layer of a document whose parts are of type `ν`. -/
inductive Look (ν : Type) where
  | null
  | bool (value : Bool)
  | num (value : Number)
  | str (value : String)
  | arr (items : List ν)
  | obj (members : List (Option String × ν))
  | unreadable

/-- Documents that can be looked at layer by layer, and read as free-form values when
nested at most so deep. -/
class Readable (ν : Type) where
  look : ν → Look ν
  value? : Nat → ν → Option Json

instance : Readable Raw where
  look
    | .null => .null
    | .bool value => .bool value
    | .number lexeme => ((Number.ofLexeme? lexeme).map Look.num).getD .unreadable
    | .string raw => ((readText? raw).map Look.str).getD .unreadable
    | .array items => .arr items
    | .object members => .obj (members.map fun (name, member) => (readText? name, member))
  value? := ofRaw?

instance : Readable Json where
  look
    | .null => .null
    | .bool value => .bool value
    | .num value => .num value
    | .str value => .str value
    | .arr items => .arr items
    | .obj members => .obj (members.map fun (name, member) => (some name, member))
  value? _ value := some value

variable {ν : Type} [Readable ν]

/-- A natural number of at most `limit`. -/
def natUpTo? (limit : Nat) (node : ν) : Option Nat :=
  match Readable.look node with
  | .num (.int value) => if 0 ≤ value ∧ value ≤ limit then some value.toNat else none
  | _ => none

/-- A natural number of at most sixty-four bits. -/
def word? (node : ν) : Option Nat := natUpTo? maxWord node

/-- Any number as a double. -/
def float? (node : ν) : Option Float :=
  match Readable.look node with
  | .num (.float value) => some value
  | .num (.int value) =>
    let magnitude := (UInt64.ofNat value.natAbs).toFloat
    some (if value < 0 then -magnitude else magnitude)
  | _ => none

/-- A text. -/
def text? (node : ν) : Option String :=
  match Readable.look node with
  | .str value => some value
  | _ => none

/-- Null or what `read` reads. -/
def optional? {α : Type} (read : ν → Option α) (node : ν) : Option (Option α) :=
  match Readable.look node with
  | .null => some none
  | _ => (read node).map some

/-- A list of what `read` reads. -/
def list? {α : Type} (read : ν → Option α) (node : ν) : Option (List α) :=
  match Readable.look node with
  | .arr items => items.mapM read
  | _ => none

/-- One of the names of a choice, alone or as the only member of an object that
gives it no content. -/
def choice? {α : Type} (named : String → Option α) (node : ν) : Option α :=
  match Readable.look node with
  | .str value => named value
  | .obj [(some name, member)] =>
    match Readable.look member with
    | .null => named name
    | _ => none
  | _ => none

/-- The fields found of a record, and whether it was an object. -/
structure Fields (ν : Type) where
  named : Bool
  found : List (String × ν)

/-- Gather the members of an object whose names are known. -/
def gatherFields (names : List String) (found : List (String × ν)) :
    List (Option String × ν) → Option (List (String × ν))
  | [] => some found
  | (none, _) :: _ => none
  | (some name, member) :: rest =>
    if !names.contains name then gatherFields names found rest
    else if found.any (·.1 = name) then none
    else gatherFields names ((name, member) :: found) rest

/-- The fields of a record whose names are given in order. -/
def fields? (names : List String) (node : ν) : Option (Fields ν) :=
  match Readable.look node with
  | .arr items => if names.length < items.length then none else some ⟨false, names.zip items⟩
  | .obj members => (gatherFields names [] members).map fun found => ⟨true, found⟩
  | _ => none

/-- The content of a field, if it was found. -/
def Fields.find? (f : Fields ν) (name : String) : Option ν :=
  (f.found.find? fun field => field.1 = name).map (·.2)

/-- A field that must be there. -/
def Fields.required {α : Type} (f : Fields ν) (name : String) (read : ν → Option α) :
    Option α :=
  (f.find? name).bind read

/-- A field with a default. -/
def Fields.withDefault {α : Type} (f : Fields ν) (name : String) (absent : α)
    (read : ν → Option α) : Option α :=
  match f.find? name with
  | some node => read node
  | none => some absent

/-- A field that may be null, and in an object also absent. -/
def Fields.nullable {α : Type} (f : Fields ν) (name : String) (read : ν → Option α) :
    Option (Option α) :=
  match f.find? name with
  | some node => optional? read node
  | none => if f.named then some none else none

end Courier.Json
