import RatingServer.Json.Document
import RatingServer.Table
import RatingServer.Wire.Bytes

/-!
# Formats

A format says how the values of a type are exchanged: as data text and as bytes.
Writing always succeeds. Reading data text follows the document from left to
right and answers with the first fault it meets; reading bytes answers with the
value and the bytes after it.

A fault tells why a text, a frame or a value could not be read as what it should be.
Where a document comes from decides how some faults are told. A document that is
read as it arrives tells only that it is not well formed where one that was kept
first can tell more.
-/

namespace RatingServer

/-- The reason why something could not be read. -/
inductive DecodeFault where
  /-- A reply line holds nothing. -/
  | emptyLine
  /-- A frame announces a body above the limit. -/
  | frameTooLong (length : Nat)
  /-- A field that must be there is missing. -/
  | missingField (name : String)
  /-- A field stands twice. -/
  | duplicateField (name : String)
  /-- A choice has no variant of this name. -/
  | unknownVariant (name : String)
  /-- A value is of another type than the one asked for. -/
  | invalidType
  /-- A value lies outside its type. -/
  | invalidValue
  /-- A list has too few or too many items. -/
  | invalidLength
  /-- What was received is not well formed. -/
  | malformed
  deriving DecidableEq, Repr

namespace DecodeFault

/-- The text of a fault. -/
def message : DecodeFault → String
  | emptyLine => "empty response line"
  | frameTooLong n => "frame of " ++ n.repr ++ " bytes exceeds limit"
  | missingField f => "missing field `" ++ f ++ "`"
  | duplicateField f => "duplicate field `" ++ f ++ "`"
  | unknownVariant v => "unknown variant `" ++ v ++ "`"
  | invalidType => "invalid type"
  | invalidValue => "invalid value"
  | invalidLength => "invalid length"
  | malformed => "<malformed>"

end DecodeFault

end RatingServer

namespace RatingServer.Wire

open Json (Document)

/-- Where a document comes from. -/
inductive Source where
  /-- It is read while its text arrives. -/
  | stream
  /-- It was kept until the whole text was known to be well formed. -/
  | kept
  /-- It is a value given in memory. -/
  | value
  /-- It is a part of the settings, where surplus items do not matter. -/
  | settings
  deriving DecidableEq, Repr

/-- The fault of a choice that is neither a text nor a record. -/
def Source.notAChoice : Source → DecodeFault
  | .stream => .malformed
  | _ => .invalidType

/-- The fault of a choice whose record has not exactly one member. -/
def Source.notOneMember : Source → DecodeFault
  | .stream => .malformed
  | _ => .invalidValue

/-- The fault of a list with surplus items, if it is one. -/
def Source.surplus : Source → Option DecodeFault
  | .stream => some .malformed
  | .settings => none
  | _ => some .invalidLength

/-- The fault of a value that should be of another type. -/
def typeFault : Document → DecodeFault
  | .broken | .num none | .str none => .malformed
  | _ => .invalidType

/-- The fault of a list that ends too early. -/
def tooShort (whole : Bool) : DecodeFault := if whole then .invalidLength else .malformed

/-- A reader of a document. -/
abbrev ReadDocument (α : Type) := Source → Document → Except DecodeFault α

/-- A reader of bytes: the value and the bytes after it. -/
abbrev ReadBytes (α : Type) := Bytes → Option (α × Bytes)

/-- How the values of a type are exchanged. -/
structure Format (α : Type) where
  /-- The data value of a value. -/
  toJson : α → Json
  /-- Reads a document. -/
  ofDocument : ReadDocument α
  /-- The bytes of a value. -/
  put : α → Bytes
  /-- Reads bytes. -/
  get : ReadBytes α

namespace Format

variable {α β : Type}

/-- The format of a type whose values stand for those of another. -/
def map (f : Format α) (make : α → β) (view : β → α) : Format β where
  toJson b := f.toJson (view b)
  ofDocument src d := (f.ofDocument src d).map make
  put b := f.put (view b)
  get bs := (f.get bs).map fun r => (make r.1, r.2)

/-- Truth values. -/
def bool : Format Bool where
  toJson b := .bool b
  ofDocument _
    | .bool b => .ok b
    | d => .error (typeFault d)
  put b := [if b then 1 else 0]
  get
    | 0 :: bs => some (false, bs)
    | 1 :: bs => some (true, bs)
    | _ => none

/-- Reads an integer between two bounds. -/
def integerBetween (low high : Int) : Document → Except DecodeFault Int
  | .num (some (.integer n)) => if low ≤ n && n ≤ high then .ok n else .error .invalidValue
  | d => .error (typeFault d)

/-- Natural numbers of some bits, of which a long form has at most `widest`
bytes. -/
def unsigned (bits widest : Nat) (toNat : α → Nat) (ofNat : Nat → α) : Format α where
  toJson a := .nat (toNat a)
  ofDocument _ d := (integerBetween 0 (Nat.pow 2 bits - 1) d).map fun n => ofNat n.toNat
  put a := putCount (toNat a)
  get bs := (getCount widest bs).map fun r => (ofNat r.1, r.2)

/-- Integers of some bits, of which a long form has at most `widest` bytes. -/
def signed (bits widest : Nat) (toInt : α → Int) (ofInt : Int → α) : Format α where
  toJson a := .int (toInt a)
  ofDocument _ d := (integerBetween (-Nat.pow 2 (bits - 1)) (Nat.pow 2 (bits - 1) - 1) d).map ofInt
  put a := putCount (fold (toInt a))
  get bs := (getCount widest bs).map fun r => (ofInt (unfold r.1), r.2)

/-- Natural numbers of 16 bits. -/
def uint16 : Format UInt16 := unsigned 16 2 UInt16.toNat UInt16.ofNat

/-- Natural numbers of 32 bits. -/
def uint32 : Format UInt32 := unsigned 32 4 UInt32.toNat UInt32.ofNat

/-- Natural numbers of 64 bits. -/
def uint64 : Format UInt64 := unsigned 64 8 UInt64.toNat UInt64.ofNat

/-- Integers of 32 bits. -/
def int32 : Format Int32 := signed 32 4 Int32.toInt Int32.ofInt

/-- Integers of 64 bits. -/
def int64 : Format Int64 := signed 64 8 Int64.toInt Int64.ofInt

/-- Floating-point numbers; an integer is read as the nearest one. -/
def float : Format Double where
  toJson x := .real x
  ofDocument _
    | .num (some (.integer n)) => .ok (.ofInt n)
    | .num (some (.real x)) => .ok x
    | d => .error (typeFault d)
  put x := littleEndian 8 x.bits.toNat
  get bs := (take? 8 bs).map fun r => (⟨UInt64.ofNat (ofLittleEndian r.1)⟩, r.2)

/-- Texts. -/
def string : Format String where
  toJson s := .str s
  ofDocument _
    | .str (some s) => .ok s
    | d => .error (typeFault d)
  put s := putCount (utf8 s).length ++ utf8 s
  get bs := do
    let (length, bs) ← getCount 8 bs
    let (text, bs) ← take? length bs
    let s ← ofUtf8? text
    some (s, bs)

/-- Values that may be absent. -/
def option (f : Format α) : Format (Option α) where
  toJson
    | none => .null
    | some a => f.toJson a
  ofDocument src
    | .null => .ok none
    | d => (f.ofDocument src d).map some
  put
    | none => [0]
    | some a => 1 :: f.put a
  get
    | 0 :: bs => some (none, bs)
    | 1 :: bs => (f.get bs).map fun r => (some r.1, r.2)
    | _ => none

/-- Reads the items of a list one after another. -/
def readItems (read : Document → Except DecodeFault α) :
    List Document → Except DecodeFault (List α)
  | [] => .ok []
  | d :: ds => do
    let a ← read d
    let as ← readItems read ds
    return a :: as

/-- Reads a number of values one after another. -/
def getItems (get : ReadBytes α) : Nat → ReadBytes (List α)
  | 0, bs => some ([], bs)
  | n + 1, bs => do
    let (a, bs) ← get bs
    let (as, bs) ← getItems get n bs
    some (a :: as, bs)

/-- Lists. -/
def list (f : Format α) : Format (List α) where
  toJson l := .arr (l.map f.toJson)
  ofDocument src
    | .arr items whole => do
      let l ← readItems (f.ofDocument src) items
      if whole then return l else .error .malformed
    | d => .error (typeFault d)
  put l := putCount l.length ++ l.flatMap f.put
  get bs := do
    let (n, bs) ← getCount 8 bs
    getItems f.get n bs

/-- Reads the members of a record of values under texts. -/
def readEntries (read : Document → Except DecodeFault α) :
    List (Option String × Document) → Except DecodeFault (List (String × α))
  | [] => .ok []
  | (none, _) :: _ => .error .malformed
  | (some k, d) :: ms => do
    let a ← read d
    let es ← readEntries read ms
    return (k, a) :: es

/-- Tables of values under texts, written in the order of the texts; of two
members with one text the later one counts. -/
def table (f : Format α) : Format (Table String α) where
  toJson t := .obj (t.entries.map fun e => (e.1, f.toJson e.2))
  ofDocument src
    | .obj members whole => do
      let entries ← readEntries (f.ofDocument src) members
      if whole then return .ofList entries else .error .malformed
    | d => .error (typeFault d)
  put t := putCount t.size ++ t.entries.flatMap fun e => string.put e.1 ++ f.put e.2
  get bs := do
    let (n, bs) ← getCount 8 bs
    let (entries, bs) ← getItems
      (fun bs => do
        let (k, bs) ← string.get bs
        let (a, bs) ← f.get bs
        some ((k, a), bs)) n bs
    some (.ofList entries, bs)

/-- Pairs, as lists of two items. -/
def pair (f : Format α) (g : Format β) : Format (α × β) where
  toJson p := .arr [f.toJson p.1, g.toJson p.2]
  ofDocument src
    | .arr items whole => do
      match items with
      | [] => .error (tooShort whole)
      | [d] =>
        let _ ← f.ofDocument src d
        .error (tooShort whole)
      | d :: e :: surplus =>
        let a ← f.ofDocument src d
        let b ← g.ofDocument src e
        match surplus, src.surplus with
        | _ :: _, some fault => .error fault
        | _, _ => if whole then return (a, b) else .error .malformed
    | d => .error (typeFault d)
  put p := f.put p.1 ++ g.put p.2
  get bs := do
    let (a, bs) ← f.get bs
    let (b, bs) ← g.get bs
    some ((a, b), bs)

end Format

end RatingServer.Wire
