import RatingServer.Wire.Record
import RatingServer.Rating
import RatingServer.Settings

/-!
# Snapshots

A snapshot is a copy of all data of a server at one time. Besides ratings, profiles
and settings it holds nominal lists, which give each value of a nominal attribute an
index, and external records, which identify a row in another system, each with the
internal record of the row of this one.

The rows that a query found are handed out by a cursor among them. Only the rows are
exchanged; whoever reads them starts at the first one.
-/

namespace RatingServer

open Wire

/-- One value of a nominal attribute. -/
structure Nominal where
  /-- The value. -/
  value : String
  /-- The index that stands for it. -/
  index : Int32
  /-- The index of the value above it; -1 for none. -/
  parentIndex : Int32 := -1
  deriving DecidableEq, Repr

namespace Nominal

/-- The format of a nominal value. -/
def format : Format Nominal :=
  (((required "value" .string).and <| (required "index" .int32).and <|
    required "parent_index" .int32).map
    (fun (a, b, c) => ⟨a, b, c⟩) (fun n => (n.value, n.index, n.parentIndex))).format

end Nominal

/-- The values of a nominal attribute, in the order in which they came. -/
structure NominalList where
  /-- The unit. -/
  unit : String
  /-- The attribute. -/
  attr : String
  /-- The values. -/
  nominals : List Nominal := []
  deriving DecidableEq, Repr

namespace NominalList

/-- The first value of an index. -/
def find? (l : NominalList) (index : Int32) : Option Nominal :=
  l.nominals.find? (·.index = index)

/-- The values with one of them at its place: over the first value of its index,
or at the end. -/
def placed (n : Nominal) : List Nominal → List Nominal
  | [] => [n]
  | m :: ms => if m.index = n.index then n :: ms else m :: placed n ms

/-- The list with a value at its place. -/
def upsert (l : NominalList) (n : Nominal) : NominalList :=
  { l with nominals := placed n l.nominals }

/-- The format of a nominal list. -/
def format : Format NominalList :=
  (((required "unit" .string).and <| (required "attribute" .string).and <|
    required "nominals" (.list Nominal.format)).map
    (fun (a, b, c) => ⟨a, b, c⟩) (fun l => (l.unit, l.attr, l.nominals))).format

end NominalList

/-- The identity of a row in another system. -/
structure ExternalRecord where
  /-- The unit of the row. -/
  unit : String
  /-- The attribute that identifies it. -/
  attr : String
  /-- The value of the attribute. -/
  value : String
  deriving DecidableEq, Repr

namespace ExternalRecord

/-- The format of an external record. -/
def format : Format ExternalRecord :=
  (((required "unit" .string).and <| (required "attribute" .string).and <|
    required "value" .string).map
    (fun (a, b, c) => ⟨a, b, c⟩) (fun r => (r.unit, r.attr, r.value))).format

end ExternalRecord

/-- The identity of a row of this system. -/
structure InternalRecord where
  /-- The unit of the row. -/
  unit : String
  /-- The attribute that identifies it. -/
  attr : String
  /-- The value of the attribute. -/
  value : Int32
  deriving DecidableEq, Repr

namespace InternalRecord

/-- Internal records are ordered by unit, then by attribute, then by value. -/
instance : Ord InternalRecord :=
  ⟨compareLex (compareOn unit) (compareLex (compareOn attr) (compareOn value))⟩

instance : Std.TransOrd InternalRecord :=
  inferInstanceAs (Std.TransCmp (compareLex (compareOn unit)
    (compareLex (compareOn attr) (compareOn value))))

instance : Std.LawfulEqOrd InternalRecord where
  eq_of_compare {a b} h := by
    obtain ⟨h₁, h₂⟩ := compareLex_eq_eq.mp h
    obtain ⟨h₂, h₃⟩ := compareLex_eq_eq.mp h₂
    cases a
    cases b
    simp only [mk.injEq]
    exact ⟨Std.LawfulEqOrd.eq_of_compare h₁, Std.LawfulEqOrd.eq_of_compare h₂,
      Std.LawfulEqOrd.eq_of_compare h₃⟩

/-- The format of an internal record. -/
def format : Format InternalRecord :=
  (((required "unit" .string).and <| (required "attribute" .string).and <|
    required "value" .int32).map
    (fun (a, b, c) => ⟨a, b, c⟩) (fun r => (r.unit, r.attr, r.value))).format

end InternalRecord

/-- Rows, and how many of them have been handed out. -/
structure RowCursor (α : Type) where
  /-- The rows. -/
  rows : List α
  /-- The number of rows handed out. -/
  position : Nat := 0
  deriving DecidableEq, Repr

namespace RowCursor

variable {α : Type}

/-- A cursor before the first of some rows. -/
def of (rows : List α) : RowCursor α := { rows }

/-- The next row, and the cursor after it. -/
def next (c : RowCursor α) : Option α × RowCursor α :=
  match c.rows[c.position]? with
  | none => (none, c)
  | some row => (some row, { c with position := c.position + 1 })

/-- The cursor before the first row. -/
def reset (c : RowCursor α) : RowCursor α := of c.rows

/-- The number of rows. -/
def count (c : RowCursor α) : Nat := c.rows.length

/-- The format of the rows. -/
def format (f : Format α) : Format (RowCursor α) :=
  ((required "rows" (.list f)).map of rows).format

end RowCursor

/-- A copy of all data of a server. -/
structure Snapshot where
  /-- The settings. -/
  config : Settings := .empty
  /-- The ratings of each user. -/
  userRatings : List RatingVector := []
  /-- The profiles of users. -/
  userProfiles : List Profile := []
  /-- The profiles of items. -/
  itemProfiles : List Profile := []
  /-- The nominal lists. -/
  nominals : List NominalList := []
  /-- The external records, each with the internal record it belongs to. -/
  externalRecords : List (InternalRecord × ExternalRecord) := []
  deriving DecidableEq

namespace Snapshot

/-- The users that rated something. -/
def userIds (s : Snapshot) : List Int32 := s.userRatings.map (·.id)

/-- The items that were rated or have a profile, in ascending order and each
once. -/
def itemIds (s : Snapshot) : List Int32 :=
  let rated := s.userRatings.flatMap (·.ratings.keys)
  (Table.ofList ((rated ++ s.itemProfiles.map (·.id)).map fun id => (id, ()))).keys

/-- The format of a snapshot. -/
def format : Format Snapshot :=
  (((required "config" Settings.format).and <|
    (required "user_ratings" (.list RatingVector.format)).and <|
    (required "user_profiles" (.list Profile.format)).and <|
    (required "item_profiles" (.list Profile.format)).and <|
    (required "nominals" (.list NominalList.format)).and <|
    required "external_records" (.list (.pair InternalRecord.format ExternalRecord.format))).map
    (fun (a, b, c, d, e, f) => ⟨a, b, c, d, e, f⟩)
    (fun s => (s.config, s.userRatings, s.userProfiles, s.itemProfiles, s.nominals,
      s.externalRecords))).format

end Snapshot

end RatingServer
