import RatingServer.Wire.Choice
import RatingServer.Wire.Record

/-!
# Profiles

A profile is a row of a unit: an identifier and named attribute values. The
attributes that its values have are told as an attribute list.
-/

namespace RatingServer

open Wire

/-- The types of attributes. -/
inductive AttributeType where
  /-- A truth value. -/
  | bit
  /-- An index into a nominal list. -/
  | nominal
  /-- An integer. -/
  | integer
  /-- A floating-point number. -/
  | real
  /-- A text. -/
  | string
  /-- A time in milliseconds. -/
  | time
  deriving DecidableEq, Repr

namespace AttributeType

/-- All types, in the order of their numbers. -/
def all : List AttributeType := [bit, nominal, integer, real, string, time]

/-- The name of a type. -/
def name : AttributeType → String
  | bit => "bit"
  | nominal => "nominal"
  | integer => "integer"
  | real => "real"
  | string => "string"
  | time => "time"

/-- The type of a name. -/
def ofName? (s : String) : Option AttributeType := all.find? (·.name = s)

/-- The format of a type. -/
def format : Format AttributeType := .names all name

end AttributeType

/-- A described attribute. -/
structure Attribute where
  /-- The name of the attribute. -/
  name : String
  /-- The type of its values. -/
  type : AttributeType
  /-- Whether it identifies a profile within its unit. -/
  isKey : Bool := false
  deriving DecidableEq, Repr

namespace Attribute

/-- The attribute that identifies a profile. -/
def key (name : String) : Attribute := ⟨name, .integer, true⟩

/-- The fields of an attribute. -/
def fields : Fields Attribute :=
  ((required "name" .string).and <| (required "kind" AttributeType.format).and <|
    required "key" .bool).map (fun (a, b, c) => ⟨a, b, c⟩) (fun a => (a.name, a.type, a.isKey))

/-- The format of an attribute. -/
def format : Format Attribute := fields.format

end Attribute

/-- The attributes of a profile or of a unit. -/
structure AttributeList where
  /-- The attributes, in order. -/
  attributes : List Attribute
  deriving DecidableEq, Repr

namespace AttributeList

/-- The first attribute of a name. -/
def find? (l : AttributeList) (name : String) : Option Attribute :=
  l.attributes.find? (·.name = name)

/-- The first attribute that is a key. -/
def key? (l : AttributeList) : Option Attribute := l.attributes.find? (·.isKey)

/-- The format of an attribute list. -/
def format : Format AttributeList :=
  ((required "attributes" (.list Attribute.format)).map mk attributes).format

end AttributeList

/-- The value of an attribute. -/
inductive AttributeValue where
  /-- A truth value. -/
  | bit (b : Bool)
  /-- An index into a nominal list. -/
  | nominal (index : Int32)
  /-- An integer. -/
  | integer (n : Int64)
  /-- A floating-point number. -/
  | real (x : Double)
  /-- A text. -/
  | string (s : String)
  /-- A time in milliseconds. -/
  | time (t : UInt64)
  /-- No value is known. -/
  | missing
  deriving DecidableEq, Repr

namespace AttributeValue

/-- The type of a value; nothing if no value is known. -/
def type? : AttributeValue → Option AttributeType
  | bit _ => some .bit
  | nominal _ => some .nominal
  | integer _ => some .integer
  | real _ => some .real
  | string _ => some .string
  | time _ => some .time
  | missing => none

/-- Two values of one type are equal. Real values are compared as numbers: the
two zeros are equal, and what is not a number equals nothing. -/
def agrees : AttributeValue → AttributeValue → Bool
  | real x, real y => x.agrees y
  | a, b => a = b

/-- The format of a value. -/
def format : Format AttributeValue :=
  .choice
    [.payload "bit" .bool bit, .payload "nominal" .int32 nominal,
      .payload "integer" .int64 integer, .payload "real" .float real,
      .payload "string" .string string, .payload "time" .uint64 time,
      .bareName "missing" missing]
    fun
    | bit b => .of 0 .bool b
    | nominal i => .of 1 .int32 i
    | integer n => .of 2 .int64 n
    | real x => .of 3 .float x
    | string s => .of 4 .string s
    | time t => .of 5 .uint64 t
    | missing => .bareName 6

end AttributeValue

/-- A row of a unit. -/
structure Profile where
  /-- The identifier within the unit. -/
  id : Int32
  /-- The values of the attributes. -/
  values : Table String AttributeValue := .empty
  deriving DecidableEq

namespace Profile

/-- The profile has every value of a condition. The condition's identifier counts
unless it is zero. -/
def satisfies (p condition : Profile) : Bool :=
  (condition.id = 0 || condition.id = p.id) &&
    condition.values.entries.all fun (name, value) => (p.values.get? name).any (·.agrees value)

/-- The attributes of the known values, after the key attribute. -/
def attributeList (p : Profile) (keyName : String) : AttributeList :=
  ⟨.key keyName :: p.values.entries.filterMap fun (name, value) =>
    value.type?.map fun type => { name, type }⟩

/-- The fields of a profile. -/
def fields : Fields Profile :=
  ((required "id" .int32).and <| required "values" (.table AttributeValue.format)).map
    (fun (a, b) => ⟨a, b⟩) (fun p => (p.id, p.values))

/-- The format of a profile. -/
def format : Format Profile := fields.format

end Profile

end RatingServer
