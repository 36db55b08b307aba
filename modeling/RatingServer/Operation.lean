import RatingServer.Evaluator
import RatingServer.Accounts
import RatingServer.Snapshot

/-!
# Operations

What a client can ask of the service of a server, and the kind of result that
each operation has.
-/

namespace RatingServer

open Wire

/-- A set of identifiers. -/
abbrev IdSet := Table Int32 Unit

/-- The set of some identifiers. -/
def IdSet.ofList (ids : List Int32) : IdSet := Table.ofList (ids.map fun id => (id, ()))

/-- Sets of identifiers are exchanged as lists. -/
def IdSet.format : Format IdSet := (Format.list .int32).map IdSet.ofList Table.keys

/-- An operation of the service. -/
inductive Operation where
  /-- Estimates the ratings that a target would give some items. -/
  | estimate (target : RecommendTarget) (items : IdSet)
  /-- Recommends items to a target; a limit above zero bounds their number. -/
  | recommend (target : RecommendTarget) (limit : Int32)
  /-- Recommends items to a user. -/
  | recommendUser (user : Int32) (limit : Int32)
  /-- Inserts ratings, over those that are there. -/
  | insertRatings (ratings : RatingVector)
  /-- Replaces ratings that are there. -/
  | updateRatings (ratings : RatingVector)
  /-- Deletes ratings, whatever their values. -/
  | deleteRatings (ratings : RatingVector)
  /-- The users or items that are known. -/
  | ids (side : Side)
  /-- The ratings of one user or item. -/
  | ratingsOf (side : Side) (id : Int32)
  /-- The ratings of every user or item. -/
  | allRatings (side : Side)
  /-- The ratings that a query selects. -/
  | ratingsBySql (side : Side) (sql : String)
  /-- Deletes the ratings of one user or item. -/
  | deleteRatingsOf (side : Side) (id : Int32)
  /-- The profile of one user or item. -/
  | profileOf (side : Side) (id : Int32)
  /-- The profile of the user or item that another system knows by a value. -/
  | profileOfExternal (side : Side) (value : String)
  /-- The profiles of all users or items. -/
  | profiles (side : Side)
  /-- The profiles that a query selects. -/
  | profilesBySql (side : Side) (sql : String)
  /-- The attributes of the profiles of users or items. -/
  | attributes (side : Side)
  /-- Inserts the profile of a user or item, with its record in another system. -/
  | insertProfile (side : Side) (profile : Profile) (record : Option ExternalRecord)
  /-- Replaces the profile of a user or item. -/
  | updateProfile (side : Side) (profile : Profile)
  /-- Deletes the profile of a user or item. -/
  | deleteProfile (side : Side) (id : Int32)
  /-- The record of a user or item in another system. -/
  | externalOf (side : Side) (id : Int32)
  /-- The values of a nominal attribute. -/
  | nominals (unit attr : String)
  /-- Inserts a value of a nominal attribute. -/
  | insertNominal (unit attr : String) (nominal : Nominal)
  /-- Replaces a value of a nominal attribute. -/
  | updateNominal (unit attr : String) (nominal : Nominal)
  /-- Deletes the values of a nominal attribute. -/
  | deleteNominals (unit attr : String)
  /-- The external record of an internal one. -/
  | external (record : InternalRecord)
  /-- Inserts an external record. -/
  | insertExternal (record : InternalRecord) (external : ExternalRecord)
  /-- Replaces an external record. -/
  | updateExternal (record : InternalRecord) (external : ExternalRecord)
  /-- Deletes an external record. -/
  | deleteExternal (record : InternalRecord)
  /-- Asks whether an account has a password and privileges. -/
  | validateAccount (account password : String) (privileges : Privileges)
  /-- The first sample profile that satisfies a condition. -/
  | findSample (condition : Profile)
  /-- The sample profiles that a query selects. -/
  | samplesBySql (sql : String)
  /-- The attributes of the sample profiles. -/
  | sampleAttributes
  /-- Inserts a sample profile. -/
  | insertSample (profile : Profile)
  /-- Replaces a sample profile. -/
  | updateSample (profile : Profile)
  /-- Deletes the sample profiles that satisfy a condition. -/
  | deleteSamples (condition : Profile)
  /-- The first profile of a unit that satisfies a condition. -/
  | findRow (unit : String) (condition : Profile)
  /-- The profiles that a query selects. -/
  | rowsBySql (sql : String)
  /-- The attributes of the profiles of a unit. -/
  | rowAttributes (unit : String)
  /-- Inserts a profile of a unit. -/
  | insertRow (unit : String) (profile : Profile)
  /-- Replaces a profile of a unit. -/
  | updateRow (unit : String) (profile : Profile)
  /-- Deletes the profiles of a unit that satisfy a condition. -/
  | deleteRows (unit : String) (condition : Profile)
  /-- A copy of all data. -/
  | snapshot
  /-- The settings that clients may see. -/
  | settings
  /-- The evaluator of a name. -/
  | evaluator (name : String)
  /-- The names of the evaluators. -/
  | evaluatorNames
  deriving DecidableEq

/-- The kinds of results. -/
inductive ResultKind where
  /-- An attribute list. -/
  | attributes
  /-- A truth value. -/
  | flag
  /-- Settings. -/
  | settings
  /-- Rows of rating vectors. -/
  | ratingRows
  /-- Rows of profiles. -/
  | profileRows
  /-- Rows of identifiers. -/
  | idRows
  /-- A nominal list. -/
  | nominals
  /-- A profile. -/
  | profile
  /-- A snapshot. -/
  | snapshot
  /-- A text. -/
  | text
  /-- A list of texts. -/
  | texts
  /-- A rating vector. -/
  | ratings
  /-- An external record. -/
  | record
  /-- An evaluator. -/
  | evaluator
  deriving DecidableEq, Repr

namespace ResultKind

/-- All kinds, in the order of their numbers. -/
def all : List ResultKind :=
  [attributes, flag, settings, ratingRows, profileRows, idRows, nominals, profile, snapshot,
    text, texts, ratings, record, evaluator]

/-- The name of a kind in data texts. -/
def name : ResultKind → String
  | attributes => "attribute_list"
  | flag => "boolean_result"
  | settings => "data_config"
  | ratingRows => "f_rating"
  | profileRows => "f_profile"
  | idRows => "f_id"
  | nominals => "nominal_list"
  | profile => "profile"
  | snapshot => "snapshot"
  | text => "string_result"
  | texts => "string_array"
  | ratings => "v_rating"
  | record => "external_record"
  | evaluator => "evaluator"

/-- The name of a kind in messages. -/
def label : ResultKind → String
  | attributes => "AttributeList"
  | flag => "BooleanResult"
  | settings => "DataConfig"
  | ratingRows => "FRating"
  | profileRows => "FProfile"
  | idRows => "FId"
  | nominals => "NominalList"
  | profile => "Profile"
  | snapshot => "Snapshot"
  | text => "StringResult"
  | texts => "StringArray"
  | ratings => "VRating"
  | record => "ExternalRecord"
  | evaluator => "Evaluator"

/-- The results of a kind. -/
@[reducible] def Value : ResultKind → Type
  | attributes => AttributeList
  | flag => Bool
  | settings => Settings
  | ratingRows => RowCursor RatingVector
  | profileRows => RowCursor Profile
  | idRows => RowCursor Int32
  | nominals => NominalList
  | profile => Profile
  | snapshot => Snapshot
  | text => String
  | texts => List String
  | ratings => RatingVector
  | record => ExternalRecord
  | evaluator => Evaluator

/-- The format of the results of a kind. -/
def format : (kind : ResultKind) → Format kind.Value
  | attributes => AttributeList.format
  | flag => .bool
  | settings => Settings.format
  | ratingRows => RowCursor.format RatingVector.format
  | profileRows => RowCursor.format Profile.format
  | idRows => RowCursor.format .int32
  | nominals => NominalList.format
  | profile => Profile.format
  | snapshot => Snapshot.format
  | text => .string
  | texts => .list .string
  | ratings => RatingVector.format
  | record => ExternalRecord.format
  | evaluator => Evaluator.format

/-- What an operation answers whose result is of a kind: truth values and lists of
texts are always there, all else may be absent. -/
@[reducible] def Answer : ResultKind → Type
  | flag => Bool
  | texts => List String
  | kind => Option kind.Value

end ResultKind

/-- The kind of result that an operation has. -/
@[reducible] def Operation.kind : Operation → ResultKind
  | estimate _ _ | recommend _ _ | recommendUser _ _ | ratingsOf _ _ => .ratings
  | insertRatings _ | updateRatings _ | deleteRatings _ | deleteRatingsOf _ _
  | insertProfile _ _ _ | updateProfile _ _ | deleteProfile _ _
  | insertNominal _ _ _ | updateNominal _ _ _ | deleteNominals _ _
  | insertExternal _ _ | updateExternal _ _ | deleteExternal _ | validateAccount _ _ _
  | insertSample _ | updateSample _ | deleteSamples _
  | insertRow _ _ | updateRow _ _ | deleteRows _ _ => .flag
  | ids _ => .idRows
  | allRatings _ | ratingsBySql _ _ => .ratingRows
  | profileOf _ _ | profileOfExternal _ _ | findSample _ | findRow _ _ => .profile
  | profiles _ | profilesBySql _ _ | samplesBySql _ | rowsBySql _ => .profileRows
  | attributes _ | sampleAttributes | rowAttributes _ => .attributes
  | externalOf _ _ | external _ => .record
  | nominals _ _ => .nominals
  | snapshot => .snapshot
  | settings => .settings
  | evaluator _ => .evaluator
  | evaluatorNames => .texts

end RatingServer
