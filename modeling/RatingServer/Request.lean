import RatingServer.Failure
import RatingServer.Operation
import RatingServer.Text.Basic
import RatingServer.Json.Basic

/-!
# Requests

A request is sent as one line of data text: a record with the name of the action
and the fields of the action. A line is read in two goes. First the whole record
is kept, which shows that it is well formed; only the flag for a binary reply is
read at once. Then the action is looked for, and the fields of the action are
read in the order of the text.
-/

namespace RatingServer

open Wire Json

/-- A command to the server itself. -/
inductive ControlCommand where
  /-- Start. -/
  | start
  /-- Stop. -/
  | stop
  /-- Pause. -/
  | pause
  /-- Go on after a pause. -/
  | resume
  /-- Leave for good. -/
  | exit
  deriving DecidableEq, Repr

namespace ControlCommand

/-- All commands, in the order of their numbers. -/
def all : List ControlCommand := [start, stop, pause, resume, exit]

/-- The name of a command. -/
def name : ControlCommand → String
  | start => "start"
  | stop => "stop"
  | pause => "pause"
  | resume => "resume"
  | exit => "exit"

/-- The command of a name. -/
def ofName? (s : String) : Option ControlCommand := all.find? (·.name = s)

/-- The format of a command. -/
def format : Format ControlCommand := .names all name

end ControlCommand

/-- What a request asks for. -/
inductive Body where
  /-- To end the session. -/
  | quit
  /-- To change the state of the server, with credentials where the session has
  none. -/
  | control (command : ControlCommand) (account password : Option String)
  /-- An attribute of the session. -/
  | sessionAttribute (name : String)
  /-- An operation of the service. -/
  | operation (op : Operation)
  deriving DecidableEq

/-- A request. -/
structure Request where
  /-- What it asks for. -/
  body : Body
  /-- Whether the reply is to be a binary frame. -/
  binary : Bool := false
  deriving DecidableEq

namespace Body

/-- The field for a user or an item. -/
def idField : Side → Fields Int32
  | .user => Wire.required "userid" .int32
  | .item => Wire.required "itemid" .int32

/-- The field for what another system calls a user or an item. -/
def externalField : Side → Fields String
  | .user => Wire.required "external_userid" .string
  | .item => Wire.required "external_itemid" .string

/-- The field for a limit of recommendations. -/
def limitField : Fields Int32 := Wire.required "max_recommend" .int32

/-- The field for a target. -/
def targetField : Fields RecommendTarget := Wire.required "recommend_param" RecommendTarget.format

/-- The field for a rating vector. -/
def ratingsField : Fields RatingVector := Wire.required "rating_vector" RatingVector.format

/-- The field for a query. -/
def sqlField : Fields String := Wire.required "sql" .string

/-- The field for a profile. -/
def profileField : Fields Profile := Wire.required "profile" Profile.format

/-- The field for a condition. -/
def conditionField : Fields Profile := Wire.required "condition" Profile.format

/-- The field for a unit. -/
def unitField : Fields String := Wire.required "unit" .string

/-- The field for an attribute. -/
def attrField : Fields String := Wire.required "attribute" .string

/-- The field for a nominal value. -/
def nominalField : Fields Nominal := Wire.required "nominal" Nominal.format

/-- The field for an internal record. -/
def internalField : Fields InternalRecord :=
  Wire.required "internal_record" InternalRecord.format

/-- The field for the external record of an internal one. -/
def recordField : Fields ExternalRecord := Wire.required "external_record" ExternalRecord.format

/-- The fields of a recommendation for a user. -/
def recommendUserFields : Fields (Int32 × Int32) := (idField .user).and limitField

/-- The fields of an estimate. -/
def estimateFields : Fields (RecommendTarget × IdSet) :=
  targetField.and (Wire.required "queryids" IdSet.format)

/-- The fields of a recommendation for a target. -/
def recommendFields : Fields (RecommendTarget × Int32) := targetField.and limitField

/-- The fields of a profile with its record in another system. -/
def profileWithRecord : Fields (Profile × Option ExternalRecord) :=
  profileField.and (Fields.one (.omittable "external_record" ExternalRecord.format))

/-- The fields of a nominal attribute. -/
def nominalsFields : Fields (String × String) := unitField.and attrField

/-- The fields of a value of a nominal attribute. -/
def nominalFields : Fields (String × String × Nominal) :=
  unitField.and (attrField.and nominalField)

/-- The fields of an internal record and its external one. -/
def recordFields : Fields (InternalRecord × ExternalRecord) := internalField.and recordField

/-- The fields of credentials with the privileges asked for. -/
def accountFields : Fields (String × String × Privileges) :=
  (Wire.required "account_name" .string).and
    ((Wire.required "account_password" .string).and
      (Wire.required "account_privileges" Privileges.format))

/-- The fields of a condition on a unit. -/
def unitConditionFields : Fields (String × Profile) := unitField.and conditionField

/-- The fields of a profile of a unit. -/
def unitProfileFields : Fields (String × Profile) := unitField.and profileField

/-- The fields of a command. -/
def controlFields : Fields (ControlCommand × Option String × Option String) :=
  (Wire.required "control_command" ControlCommand.format).and
    ((Fields.one (.omittable "account_name" .string)).and
      (Fields.one (.omittable "account_password" .string)))

end Body

/-- An action: the name by which a request asks for it, the privileges it needs,
and its fields. -/
structure ActionForm where
  /-- The name. -/
  name : String
  /-- The privileges it needs. -/
  required : Privileges
  /-- Reads its fields from the members of a record. -/
  read : List (Option String × Document) → Except DecodeFault Body
  /-- Reads its fields from a list of values, of which there are enough. -/
  readList : List Document → Except DecodeFault Body

namespace ActionForm

/-- An action that needs certain privileges. -/
def needing (required : Privileges) (name : String) (fields : Fields α) (make : α → Body) :
    ActionForm :=
  { name
    required
    read := fun ms => (fields.ofMembers .kept ms true).map make
    readList := fun items => (fields.take .value true items).map fun r => make r.1 }

/-- An operation that needs access. -/
def operation (name : String) (fields : Fields α) (make : α → Operation) : ActionForm :=
  needing .access name fields fun a => .operation (make a)

open Body in
/-- The operations on users or on items. -/
def ofSide (s : Side) : List ActionForm :=
  [operation ("get_" ++ s.name ++ "ids") .none fun _ => .ids s,
    operation ("get_" ++ s.name ++ "_rating") (idField s) (.ratingsOf s),
    operation ("get_" ++ s.name ++ "_ratings") .none fun _ => .allRatings s,
    operation ("get_" ++ s.name ++ "_ratings_sql") sqlField (.ratingsBySql s),
    operation ("delete_" ++ s.name ++ "_rating") (idField s) (.deleteRatingsOf s),
    operation ("get_" ++ s.name ++ "_profile") (idField s) (.profileOf s),
    operation ("get_" ++ s.name ++ "_profile_by_external") (externalField s)
      (.profileOfExternal s),
    operation ("get_" ++ s.name ++ "_profiles") .none fun _ => .profiles s,
    operation ("get_" ++ s.name ++ "_profiles_sql") sqlField (.profilesBySql s),
    operation ("get_" ++ s.name ++ "_attribute_list") .none fun _ => .attributes s,
    operation ("insert_" ++ s.name ++ "_profile") profileWithRecord
      fun (p, r) => .insertProfile s p r,
    operation ("update_" ++ s.name ++ "_profile") profileField (.updateProfile s),
    operation ("delete_" ++ s.name ++ "_profile") (idField s) (.deleteProfile s),
    operation ("get_" ++ s.name ++ "_external_record") (idField s) (.externalOf s)]

open Body in
/-- All actions, in the order of their numbers. -/
def all : List ActionForm :=
  [needing .none "quit" .none fun _ => .quit,
    needing .admin "control" controlFields fun (c, a, p) => .control c a p,
    operation "estimate" estimateFields fun (t, items) => .estimate t items,
    operation "recommend" recommendFields fun (t, n) => .recommend t n,
    operation "recommend_user" recommendUserFields fun (u, n) => .recommendUser u n,
    operation "insert_rating" ratingsField .insertRatings,
    operation "update_rating" ratingsField .updateRatings,
    operation "delete_rating" ratingsField .deleteRatings] ++
  ofSide .user ++ ofSide .item ++
  [operation "get_nominal" nominalsFields fun (u, a) => .nominals u a,
    operation "insert_nominal" nominalFields fun (u, a, n) => .insertNominal u a n,
    operation "update_nominal" nominalFields fun (u, a, n) => .updateNominal u a n,
    operation "delete_nominal" nominalsFields fun (u, a) => .deleteNominals u a,
    operation "get_external_record" internalField .external,
    operation "insert_external_record" recordFields fun (r, e) => .insertExternal r e,
    operation "update_external_record" recordFields fun (r, e) => .updateExternal r e,
    operation "delete_external_record" internalField .deleteExternal,
    needing .none "validate_account" accountFields
      fun (a, p, r) => .operation (.validateAccount a p r),
    operation "get_sample_profile" conditionField .findSample,
    operation "get_sample_profiles_sql" sqlField .samplesBySql,
    operation "get_sample_profile_attribute_list" .none fun _ => .sampleAttributes,
    operation "insert_sample_profile" profileField .insertSample,
    operation "update_sample_profile" profileField .updateSample,
    operation "delete_sample_profile" conditionField .deleteSamples,
    operation "get_profile" unitConditionFields fun (u, c) => .findRow u c,
    operation "get_profiles_sql" sqlField .rowsBySql,
    operation "get_profile_attribute_list" unitField .rowAttributes,
    operation "insert_profile" unitProfileFields fun (u, p) => .insertRow u p,
    operation "update_profile" unitProfileFields fun (u, p) => .updateRow u p,
    operation "delete_profile" unitConditionFields fun (u, c) => .deleteRows u c,
    operation "get_snapshot" .none fun _ => .snapshot,
    operation "get_server_config" .none fun _ => .settings,
    needing .access "get_session_attribute" attrField .sessionAttribute,
    needing .evaluate "get_evaluator" (Wire.required "evaluator_name" .string)
      fun n => .operation (.evaluator n),
    needing .evaluate "get_evaluator_names" .none fun _ => .operation .evaluatorNames]

/-- The action of a name. -/
def ofName? (s : String) : Option ActionForm := all.find? (·.name = s)

/-- The format of the names of actions. -/
def nameFormat : Format String := .names (all.map name) id

end ActionForm

namespace Body

/-- The place of the first operation on users or on items. -/
def sideBase : Side → Nat
  | .user => 8
  | .item => 22

/-- What is written of an operation: the place of its action, and its fields. -/
def writtenOperation : Operation → Nat × List (String × Json)
  | .estimate t items => (2, estimateFields.members (t, items))
  | .recommend t n => (3, recommendFields.members (t, n))
  | .recommendUser u n => (4, recommendUserFields.members (u, n))
  | .insertRatings v => (5, ratingsField.members v)
  | .updateRatings v => (6, ratingsField.members v)
  | .deleteRatings v => (7, ratingsField.members v)
  | .ids s => (sideBase s, [])
  | .ratingsOf s id => (sideBase s + 1, (idField s).members id)
  | .allRatings s => (sideBase s + 2, [])
  | .ratingsBySql s sql => (sideBase s + 3, sqlField.members sql)
  | .deleteRatingsOf s id => (sideBase s + 4, (idField s).members id)
  | .profileOf s id => (sideBase s + 5, (idField s).members id)
  | .profileOfExternal s value => (sideBase s + 6, (externalField s).members value)
  | .profiles s => (sideBase s + 7, [])
  | .profilesBySql s sql => (sideBase s + 8, sqlField.members sql)
  | .attributes s => (sideBase s + 9, [])
  | .insertProfile s p r => (sideBase s + 10, profileWithRecord.members (p, r))
  | .updateProfile s p => (sideBase s + 11, profileField.members p)
  | .deleteProfile s id => (sideBase s + 12, (idField s).members id)
  | .externalOf s id => (sideBase s + 13, (idField s).members id)
  | .nominals u a => (36, nominalsFields.members (u, a))
  | .insertNominal u a n => (37, nominalFields.members (u, a, n))
  | .updateNominal u a n => (38, nominalFields.members (u, a, n))
  | .deleteNominals u a => (39, nominalsFields.members (u, a))
  | .external r => (40, internalField.members r)
  | .insertExternal r e => (41, recordFields.members (r, e))
  | .updateExternal r e => (42, recordFields.members (r, e))
  | .deleteExternal r => (43, internalField.members r)
  | .validateAccount a p r => (44, accountFields.members (a, p, r))
  | .findSample c => (45, conditionField.members c)
  | .samplesBySql sql => (46, sqlField.members sql)
  | .sampleAttributes => (47, [])
  | .insertSample p => (48, profileField.members p)
  | .updateSample p => (49, profileField.members p)
  | .deleteSamples c => (50, conditionField.members c)
  | .findRow u c => (51, unitConditionFields.members (u, c))
  | .rowsBySql sql => (52, sqlField.members sql)
  | .rowAttributes u => (53, unitField.members u)
  | .insertRow u p => (54, unitProfileFields.members (u, p))
  | .updateRow u p => (55, unitProfileFields.members (u, p))
  | .deleteRows u c => (56, unitConditionFields.members (u, c))
  | .snapshot => (57, [])
  | .settings => (58, [])
  | .evaluator n => (60, (Wire.required "evaluator_name" .string).members n)
  | .evaluatorNames => (61, [])

/-- What is written of a request: the place of its action, and its fields. -/
def written : Body → Nat × List (String × Json)
  | .quit => (0, [])
  | .control c a p => (1, controlFields.members (c, a, p))
  | .sessionAttribute a => (59, attrField.members a)
  | .operation op => writtenOperation op

/-- The name of the action that is asked for. -/
def action (b : Body) : String := (ActionForm.all[b.written.1]?).elim "" ActionForm.name

/-- The privileges that a session needs for what is asked: those of its action. -/
def required (b : Body) : Privileges :=
  (ActionForm.all[b.written.1]?).elim .none ActionForm.required

/-- An operation needs access, unless it is a login or asks for evaluators. -/
theorem required_operation_eq (op : Operation) : (operation op).required =
    match op with
    | .validateAccount _ _ _ => .none
    | .evaluator _ | .evaluatorNames => .evaluate
    | _ => .access := by
  cases op <;> (try cases ‹Side›) <;> rfl

end Body

namespace Request

/-- The request for something. An evaluator is asked for as a binary frame. -/
def of (body : Body) : Request :=
  match body with
  | .operation (.evaluator _) => ⟨body, true⟩
  | body => ⟨body, false⟩

/-- Requests are sent as lines only: a request has no frame. -/
def frame (_ : Request) : Except CallError Bytes := .error .couldNotSend

/-- The number of levels that a record may nest. -/
def maxDepth : Nat := 127

/-- The name of the flag for a binary reply. -/
def binaryField : String := "not_json_parsing"

/-- The name of the member that holds the action. -/
def actionField : String := "action"

/-- The data value of a request. -/
def toJson (r : Request) : Json :=
  .obj ((actionField, .str r.body.action) :: r.body.written.2 ++
    if r.binary then [(binaryField, .bool true)] else [])

/-- The line of a request. -/
def encode (r : Request) : String := r.toJson.compact

/-- Keeps the members of the record of a request, apart from the flag for a binary
reply, which is read. -/
def keep (binary : Option Bool) :
    List (Option String × Document) → Except DecodeFault (Option Bool × List (Option String × Document))
  | [] => .ok (binary, [])
  | (none, _) :: _ => .error .malformed
  | (some k, d) :: ms =>
    if k = binaryField then
      if binary.isSome then .error (.duplicateField k)
      else do
        let b ← Format.bool.ofDocument .stream d
        keep (some b) ms
    else if d.isKept (maxDepth - 1) then do
      let (binary, kept) ← keep binary ms
      return (binary, (some k, d) :: kept)
    else .error .malformed

/-- Reads the name or the number of an action. -/
def readAction : Document → Except DecodeFault ActionForm
  | .str (some name) =>
    match ActionForm.ofName? name with
    | some form => .ok form
    | none => .error (.unknownVariant name)
  | .num (some (.integer n)) =>
    if n < 0 then .error .invalidType
    else
      match ActionForm.all[n.toNat]? with
      | some form => .ok form
      | none => .error .invalidValue
  | d => .error (typeFault d)

/-- Looks for the action among the members that were kept, and answers it with the
other members. -/
def findAction (found : Option ActionForm) :
    List (Option String × Document) →
      Except DecodeFault (Option ActionForm × List (Option String × Document))
  | [] => .ok (found, [])
  | (k, d) :: ms =>
    if k = some actionField then
      if found.isSome then .error (.duplicateField actionField)
      else do
        let form ← readAction d
        findAction (some form) ms
    else do
      let (found, others) ← findAction found ms
      return (found, (k, d) :: others)

/-- Reads a request from the document of its line. -/
def ofDocument (d : Document) (clean : Bool) : Except DecodeFault Request :=
  match d with
  | .obj ms whole => do
    let (binary, kept) ← keep none ms
    if !whole then .error .malformed
    else
      let (found, others) ← findAction none kept
      match found with
      | none => .error (.missingField actionField)
      | some form =>
        let body ← form.read others
        if clean then return { body, binary := binary.getD false } else .error .malformed
  | d => .error (typeFault d)

/-- The format of requests as data values; there is none as bytes. -/
def format : Format Request where
  toJson := toJson
  ofDocument _ d := ofDocument d true
  put _ := []
  get _ := .none

/-- Reads the line of a request. -/
def decode (line : String) : Except DecodeFault Request :=
  let (d, clean) := Document.parse (Text.trim line.toList)
  ofDocument d clean

end Request

end RatingServer
