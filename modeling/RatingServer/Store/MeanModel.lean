import RatingServer.Store.Dataset

/-!
# Mean models

The recommender learns the mean rating of every item and of all ratings. It
estimates a rating by the mean of the item, else by the mean of what the user
rated, else by the mean of all ratings.
-/

namespace RatingServer

/-- What the recommender has learned. -/
structure MeanModel where
  /-- The mean of each item that was rated. -/
  itemMeans : Table Int32 Double := .empty
  /-- The mean of all ratings. -/
  globalMean : Option Double := none
  deriving DecidableEq

namespace MeanModel

/-- The ratings met so far while learning: their sums and numbers. -/
structure Tally where
  /-- The sum and the number of the ratings of each item. -/
  items : Table Int32 (Double × Nat) := .empty
  /-- The sum of all ratings. -/
  total : Double := 0.0
  /-- The number of all ratings. -/
  count : Nat := 0

/-- Meets one more rating of an item. -/
def Tally.add (t : Tally) (item : Int32) (x : Double) : Tally :=
  let (sum, n) := (t.items.get? item).getD (0.0, 0)
  { items := t.items.insert item (sum + x, n + 1), total := t.total + x, count := t.count + 1 }

/-- Meets the ratings of every user, in the order of the users and then of the items. -/
def Tally.of (d : Dataset) : Tally :=
  d.ratings.values.foldl
    (fun t row => row.ratings.entries.foldl (fun t (item, r) => t.add item r.value) t) {}

/-- Learns from a dataset. -/
def learn (d : Dataset) : MeanModel :=
  let tally := Tally.of d
  { itemMeans := tally.items.map fun _ (sum, n) => sum / .ofNat n
    globalMean := if 0 < tally.count then some (tally.total / .ofNat tally.count) else none }

/-- The estimate of the rating that a user would give an item. -/
def estimate? (m : MeanModel) (user : RatingVector) (item : Int32) : Option Double :=
  (m.itemMeans.get? item) <|> user.mean? <|> m.globalMean

/-- The estimates of the ratings that a user would give some items, as plain ratings;
an item without an estimate is left out. -/
def estimates (m : MeanModel) (user : RatingVector) (items : List Int32) : RatingVector :=
  items.foldl
    (fun v item =>
      match m.estimate? user item with
      | none => v
      | some x => v.put item { value := x })
    { id := user.id, side := .user }

/-- An estimate stands before another: the greater one, and of equal ones
that of the smaller item. -/
def before (a b : Int32 × Rating) : Bool :=
  b.2.value.rank < a.2.value.rank || (a.2.value.rank = b.2.value.rank && a.1 ≤ b.1)

/-- A vector, if it has any ratings. -/
def nonempty? (v : RatingVector) : Option RatingVector :=
  if v.ratings.isEmpty then none else some v

/-- Recommends to a user those of some items that it has not rated, best first. A
limit above zero bounds their number. -/
def recommend (m : MeanModel) (user : RatingVector) (items : List Int32) (limit : Int32) :
    Option RatingVector :=
  let unrated := items.filter fun item => !user.ratings.contains item
  let ranked := (m.estimates user unrated).ratings.entries.mergeSort before
  let chosen := if 0 < limit.toInt then ranked.take limit.toInt.toNat else ranked
  nonempty? (chosen.foldl (fun v (item, r) => v.put item r) { id := user.id, side := .user })

end MeanModel

end RatingServer
