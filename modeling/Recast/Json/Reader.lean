-- Readers: from a JSON value to the data it stands for. A reader is
-- given the count of containers that may still be entered, its room.
-- What no reader looks at may be nested to any depth.
import Recast.Json.Parser

namespace Recast.Json

/-- Reads a value with some room left. -/
abbrev Reader (α : Type) := Nat → Json → Option α

/-- The containers that a document may nest. -/
def fullRoom : Nat := 127

namespace Reader

/-! ## Single values -/

def text : Reader String
  | _, .text s => some s
  | _, _ => none

def bool : Reader Bool
  | _, .bool b => some b
  | _, _ => none

/-- A text of exactly one character. -/
def char : Reader Char
  | _, .text s =>
    match s.toList with
    | [c] => some c
    | _ => none
  | _, _ => none

/-- A whole number from `low` up to, but not including, `high`. -/
def intBetween (low high : Int) : Reader Int
  | _, .number lexeme =>
    match intOf? lexeme with
    | some n => if low ≤ n && n < high then some n else none
    | none => none
  | _, _ => none

def uint8 : Reader UInt8 := fun room j =>
  (intBetween 0 0x100 room j).map fun n => UInt8.ofNat n.toNat

def uint32 : Reader UInt32 := fun room j =>
  (intBetween 0 0x100000000 room j).map fun n => UInt32.ofNat n.toNat

def uint64 : Reader UInt64 := fun room j =>
  (intBetween 0 0x10000000000000000 room j).map fun n => UInt64.ofNat n.toNat

def int64 : Reader Int64 := fun room j =>
  (intBetween (-0x8000000000000000) 0x8000000000000000 room j).map Int64.ofInt

def float : Reader Number.Binary64
  | _, .number lexeme => floatOf? lexeme
  | _, _ => none

/-- Null stands for no value. -/
def nullable (r : Reader α) : Reader (Option α)
  | _, .null => some none
  | room, j => (r room j).map some

/-! ## Lists -/

def list (r : Reader α) : Reader (List α)
  | room + 1, .array items => items.mapM (r room)
  | _, _ => none

/-! ## Records -/

/-- The fields of a record that were given. A record may be written as
an object, or as an array of its fields in order. -/
structure Fields where
  positional : Bool
  values : List (String × Json)

/-- No name of the list comes twice among the keys. -/
def keysOnce (names : List String) (fields : List (String × Json)) : Bool :=
  names.all fun name => (fields.filter (·.1 == name)).length ≤ 1

/-- A record with the given names of fields. Other keys of an object are
passed over. An array may end early, but may not be too long. -/
def record (names : List String) (build : Nat → Fields → Option α) : Reader α
  | room + 1, .object fields =>
    if keysOnce names fields then build room ⟨false, fields⟩ else none
  | room + 1, .array items =>
    if items.length ≤ names.length then build room ⟨true, names.zip items⟩ else none
  | _, _ => none

namespace Fields

/-- A field that must be there. -/
def required (f : Fields) (name : String) (r : Reader α) (room : Nat) : Option α :=
  (f.values.lookup name).bind (r room)

/-- A field that has a value of its own when it is not there. -/
def defaulted (f : Fields) (name : String) (r : Reader α) (room : Nat) (value : α) : Option α :=
  match f.values.lookup name with
  | some j => r room j
  | none => some value

/-- A field that may be null or not there. -/
def optional (f : Fields) (name : String) (r : Reader α) (room : Nat) : Option (Option α) :=
  f.defaulted name (nullable r) room none

/-- A field that may be null, or not there in an object. -/
def nullable (f : Fields) (name : String) (r : Reader α) (room : Nat) : Option (Option α) :=
  if f.positional then f.required name (Reader.nullable r) room else f.optional name r room

end Fields

/-! ## Choices -/

/-- One of several forms: its tag alone, or its tag with a payload. -/
inductive Choice
  | bare (tag : String)
  | tagged (tag : String) (payload : Json) (room : Nat)

def choice : Reader Choice
  | _, .text tag => some (.bare tag)
  | room + 1, .object [(tag, payload)] => some (.tagged tag payload room)
  | _, _ => none

/-- One of several names without a payload. -/
def oneOf (table : List (String × α)) : Reader α := fun room j =>
  match choice room j with
  | some (.bare tag) => table.lookup tag
  | some (.tagged tag .null _) => table.lookup tag
  | _ => none

end Reader

/-- The data that a text stands for. -/
def read? (r : Reader α) (s : String) : Option α := (parse? s).bind (r fullRoom)

end Recast.Json
