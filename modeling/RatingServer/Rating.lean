import RatingServer.Profile

/-!
# Ratings

A rating vector holds the ratings that one user gave, by item, or that one item
was given, by user.
-/

namespace RatingServer

open Wire

/-- A rating. -/
structure Rating where
  /-- The value. -/
  value : Double
  /-- When it was given, in milliseconds, if that is known. -/
  ratedAt : Option UInt64 := none
  deriving DecidableEq, Repr

namespace Rating

/-- The format of a rating. -/
def format : Format Rating :=
  (((required "value" .float).and <| Fields.one (.optional "rated_at" .uint64)).map
    (fun (a, b) => ⟨a, b⟩) (fun r => (r.value, r.ratedAt))).format

end Rating

/-- The two sides of a rating. -/
inductive Side where
  /-- The user who gave it. -/
  | user
  /-- The item that it was given. -/
  | item
  deriving DecidableEq, Repr

namespace Side

/-- The name of a side, which is also the unit of its profiles. -/
def name : Side → String
  | user => "user"
  | item => "item"

/-- The format of a side. -/
def format : Format Side := .names [user, item] name

end Side

/-- The ratings of one user or one item. -/
structure RatingVector where
  /-- The user or item. -/
  id : Int32
  /-- Which of the two it is. -/
  side : Side
  /-- The ratings, by item or by user. -/
  ratings : Table Int32 Rating := .empty
  deriving DecidableEq

namespace RatingVector

/-- The vector with one more rating. -/
def put (v : RatingVector) (id : Int32) (r : Rating) : RatingVector :=
  { v with ratings := v.ratings.insert id r }

/-- The sum of some numbers, added from left to right. -/
def sum (start : Double) (xs : List Double) : Double := xs.foldl (· + ·) start

/-- The mean of the values, added in the order of the identifiers. The sum of no
values is negative zero, which leaves every first value as it is. -/
def mean? (v : RatingVector) : Option Double :=
  if v.ratings.isEmpty then none
  else some (sum (-0.0) (v.ratings.values.map (·.value)) / .ofNat v.ratings.size)

/-- The fields of a vector. -/
def fields : Fields RatingVector :=
  ((required "id" .int32).and <| (required "kind" Side.format).and <|
    required "ratings" ((Format.list (.pair .int32 Rating.format)).map
      Table.ofList Table.entries)).map
    (fun (a, b, c) => ⟨a, b, c⟩) (fun v => (v.id, v.side, v.ratings))

/-- The format of a vector; its ratings are a list of pairs. -/
def format : Format RatingVector := fields.format

end RatingVector

/-- Whom to recommend for: the ratings, and the profile if it matters. -/
structure RecommendTarget where
  /-- The ratings. -/
  ratings : RatingVector
  /-- The profile. -/
  profile : Option Profile := none
  deriving DecidableEq

namespace RecommendTarget

/-- The format of a target. -/
def format : Format RecommendTarget :=
  (((required "rating_vector" RatingVector.format).and <|
    Fields.one (.optional "profile" Profile.format)).map
    (fun (a, b) => ⟨a, b⟩) (fun t => (t.ratings, t.profile))).format

end RecommendTarget

end RatingServer
