import RatingServer.Rating
import RatingServer.Operation

/-!
# Datasets

The data of a server: ratings, profiles, nominal lists and external records. The
ratings are kept as one vector for each user who rated something, and the profiles
as one table for each unit. A change answers whether it found something to change.
Ratings can be seen from the side of the user or of the item; the vector of an item
is gathered from the vectors of all users. A rating stands between a user and an item,
and a vector of either kind names such places.
-/

namespace RatingServer

/-- The place of a rating. -/
structure Cell where
  /-- The user who gave it. -/
  user : Int32
  /-- The item that it was given. -/
  item : Int32
  deriving DecidableEq, Repr

namespace Cell

/-- The place of a rating between one side and the other. -/
def of : Side → Int32 → Int32 → Cell
  | .user, id, other => ⟨id, other⟩
  | .item, id, other => ⟨other, id⟩

/-- The user or the item of a place. -/
def along (c : Cell) : Side → Int32
  | .user => c.user
  | .item => c.item

/-- The item or the user of a place: what stands against the given side. -/
def across (c : Cell) : Side → Int32
  | .user => c.item
  | .item => c.user

end Cell

/-- The places of the ratings of a vector, with the ratings. -/
def RatingVector.cells (v : RatingVector) : List (Cell × Rating) :=
  v.ratings.entries.map fun (other, r) => (.of v.side v.id other, r)

/-- The place of a nominal list. -/
structure NominalKey where
  /-- The unit. -/
  unit : String
  /-- The attribute. -/
  attr : String
  deriving DecidableEq, Repr

namespace NominalKey

instance : Ord NominalKey := ⟨compareLex (compareOn unit) (compareOn attr)⟩

instance : Std.TransOrd NominalKey :=
  inferInstanceAs (Std.TransCmp (compareLex (compareOn unit) (compareOn attr)))

instance : Std.LawfulEqOrd NominalKey where
  eq_of_compare {a b} h := by
    obtain ⟨h₁, h₂⟩ := compareLex_eq_eq.mp h
    cases a
    cases b
    simp only [mk.injEq]
    exact ⟨Std.LawfulEqOrd.eq_of_compare h₁, Std.LawfulEqOrd.eq_of_compare h₂⟩

end NominalKey

/-- The ratings of each user. -/
abbrev RatingRows := Table Int32 RatingVector

namespace RatingRows

/-- Puts a rating into the vector of its user, which is begun if there is none. -/
def put (t : RatingRows) (c : Cell) (r : Rating) : RatingRows :=
  let row := (t.get? c.user).getD { id := c.user, side := .user }
  t.insert c.user (row.put c.item r)

/-- Replaces a rating that is there. -/
def replace (t : RatingRows) (c : Cell) (r : Rating) : Bool × RatingRows :=
  match t.get? c.user with
  | none => (false, t)
  | some row =>
    if row.ratings.contains c.item then (true, t.insert c.user (row.put c.item r))
    else (false, t)

/-- Removes a rating that is there, which may leave the vector of its user empty. -/
def remove (t : RatingRows) (c : Cell) : Bool × RatingRows :=
  match t.get? c.user with
  | none => (false, t)
  | some row =>
    (row.ratings.contains c.item,
      t.insert c.user { row with ratings := row.ratings.erase c.item })

/-- Makes a change after some others, and tells whether any of them found something. -/
def also (change : RatingRows → Cell → Rating → Bool × RatingRows) (done : Bool × RatingRows)
    (e : Cell × Rating) : Bool × RatingRows :=
  let (found, t) := change done.2 e.1 e.2
  (done.1 || found, t)

/-- Makes a change for each rating of a vector, in order, and tells whether any of them
found something. -/
def forEach (change : RatingRows → Cell → Rating → Bool × RatingRows) (t : RatingRows)
    (v : RatingVector) : Bool × RatingRows :=
  v.cells.foldl (also change) (false, t)

end RatingRows

/-- The data of a server. -/
structure Dataset where
  /-- The ratings of each user, by item. -/
  ratings : RatingRows := .empty
  /-- The profiles of each unit, by identifier. -/
  profiles : Table String (Table Int32 Profile) := .empty
  /-- The nominal lists by unit and attribute. -/
  nominals : Table NominalKey NominalList := .empty
  /-- The external records by internal record. -/
  external : Table InternalRecord ExternalRecord := .empty
  deriving DecidableEq

namespace Dataset

/-- The profiles of a unit, by identifier. -/
def unit (d : Dataset) (unit : String) : Table Int32 Profile :=
  (d.profiles.get? unit).getD .empty

/-- Sets the profiles of a unit. -/
def setUnit (d : Dataset) (unit : String) (t : Table Int32 Profile) : Dataset :=
  { d with profiles := d.profiles.insert unit t }

/-- The profiles of a unit, in the order of their identifiers. -/
def rows (d : Dataset) (unit : String) : List Profile := (d.unit unit).values

/-- Inserts ratings, over those that are there. -/
def insertRatings (d : Dataset) (v : RatingVector) : Bool × Dataset :=
  let (changed, ratings) := d.ratings.forEach (fun t c r => (true, t.put c r)) v
  (changed, { d with ratings })

/-- Replaces those ratings that are there. -/
def updateRatings (d : Dataset) (v : RatingVector) : Bool × Dataset :=
  let (changed, ratings) := d.ratings.forEach RatingRows.replace v
  (changed, { d with ratings })

/-- Deletes ratings, whatever their values, and then the vectors of users that are
left without a rating. -/
def deleteRatings (d : Dataset) (v : RatingVector) : Bool × Dataset :=
  let (changed, ratings) := d.ratings.forEach (fun t c _ => t.remove c) v
  (changed, { d with ratings := ratings.filter fun _ row => !row.ratings.isEmpty })

/-- Puts the rating of an item by one more user, if there is one, into a vector. -/
def gather (item : Int32) (v : RatingVector) (e : Int32 × RatingVector) : RatingVector :=
  match e.2.ratings.get? item with
  | none => v
  | some r => v.put e.1 r

/-- The ratings that an item was given, gathered from the vectors of all users. -/
def ratingsOfItem (d : Dataset) (item : Int32) : RatingVector :=
  d.ratings.entries.foldl (gather item) { id := item, side := .item }

/-- The ratings of one user or item, if there are any. -/
def vector? (d : Dataset) : Side → Int32 → Option RatingVector
  | .user, id => d.ratings.get? id
  | .item, id =>
    let v := d.ratingsOfItem id
    if v.ratings.isEmpty then none else some v

/-- Deletes the ratings of one user or item. -/
def deleteVector (d : Dataset) : Side → Int32 → Bool × Dataset
  | .user, id => (d.ratings.contains id, { d with ratings := d.ratings.erase id })
  | .item, id =>
    match d.vector? .item id with
    | none => (false, d)
    | some v => d.deleteRatings v

/-- The users or items with a rating. An item stands here once for each user who
rated it. -/
def ratedIds (d : Dataset) : Side → List Int32
  | .user => d.ratings.keys
  | .item => d.ratings.values.flatMap (·.ratings.keys)

/-- The users or items with a rating or a profile, in ascending order. -/
def ids (d : Dataset) (s : Side) : List Int32 :=
  (IdSet.ofList (d.ratedIds s ++ (d.unit s.name).keys)).keys

/-- The ratings of every user or item with a rating. -/
def vectors (d : Dataset) : Side → List RatingVector
  | .user => d.ratings.values
  | .item => (d.ids .item).filterMap (d.vector? .item)

/-- The attribute by which the profiles of a unit are identified. -/
def keyName (unit : String) : String :=
  if unit = Side.user.name then "userid"
  else if unit = Side.item.name then "itemid"
  else "id"

/-- The internal record of a profile. -/
def recordOf (unit : String) (id : Int32) : InternalRecord := ⟨unit, keyName unit, id⟩

/-- The profile of an identifier. -/
def profile? (d : Dataset) (unit : String) (id : Int32) : Option Profile :=
  (d.unit unit).get? id

/-- The first profile of a unit that satisfies a condition. -/
def find? (d : Dataset) (unit : String) (condition : Profile) : Option Profile :=
  (d.rows unit).find? (·.satisfies condition)

/-- Inserts a profile, over one that is there. -/
def insertProfile (d : Dataset) (unit : String) (p : Profile) : Dataset :=
  d.setUnit unit ((d.unit unit).insert p.id p)

/-- Inserts a profile, and its record in another system if one is given. -/
def insertWithRecord (d : Dataset) (unit : String) (p : Profile) (r : Option ExternalRecord) :
    Dataset :=
  let d := d.insertProfile unit p
  match r with
  | none => d
  | some r => { d with external := d.external.insert (recordOf unit p.id) r }

/-- Replaces a profile that is there. The unit is known from then on, even if it was
not and nothing is replaced. -/
def updateProfile (d : Dataset) (unit : String) (p : Profile) : Bool × Dataset :=
  let known := d.unit unit
  if known.contains p.id then (true, d.setUnit unit (known.insert p.id p))
  else (false, d.setUnit unit known)

/-- Deletes a profile that is there, and its record in another system. The unit is
known from then on, even if it was not and nothing is deleted. -/
def deleteProfile (d : Dataset) (unit : String) (id : Int32) : Bool × Dataset :=
  let known := d.unit unit
  if known.contains id then
    (true, { d.setUnit unit (known.erase id) with
      external := d.external.erase (recordOf unit id) })
  else (false, d.setUnit unit known)

/-- Deletes the profiles of a unit that satisfy a condition. -/
def deleteMatching (d : Dataset) (unit : String) (condition : Profile) : Bool × Dataset :=
  let ids := ((d.rows unit).filter (·.satisfies condition)).map (·.id)
  ids.foldl
    (fun (any, d) id =>
      let (deleted, d) := d.deleteProfile unit id
      (deleted || any, d))
    (false, d)

/-- The attributes of some attributes and of some more, without those whose names
have come before. -/
def addAttributes (known : List Attribute) (more : List Attribute) : List Attribute :=
  more.foldl (fun known a => if known.any (·.name = a.name) then known else known ++ [a]) known

/-- The attributes of the profiles of a unit, if it has any. -/
def attributes? (d : Dataset) (unit : String) : Option AttributeList :=
  let all := (d.rows unit).foldl
    (fun known p => addAttributes known (p.attributeList (keyName unit)).attributes) []
  if all.isEmpty then none else some ⟨all⟩

/-- The profile that another system knows by a value: that of the first record of
the unit with the value. -/
def profileOfExternal? (d : Dataset) (unit value : String) : Option Profile := do
  let (record, _) ← d.external.entries.find? fun (i, e) => i.unit = unit && e.value = value
  d.profile? unit record.value

/-- Replaces an external record that is there. -/
def updateExternal (d : Dataset) (i : InternalRecord) (e : ExternalRecord) : Bool × Dataset :=
  if d.external.contains i then (true, { d with external := d.external.insert i e })
  else (false, d)

/-- Inserts a value of a nominal attribute, over the one of its index. -/
def insertNominal (d : Dataset) (key : NominalKey) (n : Nominal) : Dataset :=
  let list := (d.nominals.get? key).getD { unit := key.unit, attr := key.attr }
  { d with nominals := d.nominals.insert key (list.upsert n) }

/-- Replaces a value of a nominal attribute whose index is there. -/
def updateNominal (d : Dataset) (key : NominalKey) (n : Nominal) : Bool × Dataset :=
  match d.nominals.get? key with
  | none => (false, d)
  | some list =>
    if (list.find? n.index).isSome then
      (true, { d with nominals := d.nominals.insert key (list.upsert n) })
    else (false, d)

end Dataset

end RatingServer
