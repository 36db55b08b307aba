import RatingServer.Proofs.Wire.Unordered
import RatingServer.Request

/-!
# The fields of each request

Every body of a request stands for some fields with their values, and the action of the
body reads exactly these fields, whatever their values. None of them has the name of the
action or of the flag for a binary reply.
-/

namespace RatingServer

open Wire Json

/-- The name of the field for a user or an item. -/
def Side.idField : Side → String
  | user => "userid"
  | item => "itemid"

/-- The name of the field for what another system calls a user or an item. -/
def Side.externalField : Side → String
  | user => "external_userid"
  | item => "external_itemid"

/-- The fields of an operation with their values. -/
def Operation.slots : Operation → List Slot
  | estimate t items =>
    [.required "recommend_param" RecommendTarget.format t,
      .required "queryids" IdSet.format items]
  | recommend t n =>
    [.required "recommend_param" RecommendTarget.format t, .required "max_recommend" .int32 n]
  | recommendUser u n => [.required "userid" .int32 u, .required "max_recommend" .int32 n]
  | insertRatings v | updateRatings v | deleteRatings v =>
    [.required "rating_vector" RatingVector.format v]
  | ids _ | allRatings _ | profiles _ | attributes _ | sampleAttributes | snapshot | settings
  | evaluatorNames => []
  | ratingsOf s id | deleteRatingsOf s id | profileOf s id | deleteProfile s id
  | externalOf s id => [.required s.idField .int32 id]
  | profileOfExternal s value => [.required s.externalField .string value]
  | ratingsBySql _ sql | profilesBySql _ sql | samplesBySql sql | rowsBySql sql =>
    [.required "sql" .string sql]
  | insertProfile _ p r =>
    [.required "profile" Profile.format p,
      .omittable "external_record" ExternalRecord.format r]
  | updateProfile _ p | insertSample p | updateSample p => [.required "profile" Profile.format p]
  | nominals u a | deleteNominals u a =>
    [.required "unit" .string u, .required "attribute" .string a]
  | insertNominal u a n | updateNominal u a n =>
    [.required "unit" .string u, .required "attribute" .string a,
      .required "nominal" Nominal.format n]
  | external r | deleteExternal r => [.required "internal_record" InternalRecord.format r]
  | insertExternal r e | updateExternal r e =>
    [.required "internal_record" InternalRecord.format r,
      .required "external_record" ExternalRecord.format e]
  | validateAccount a p r =>
    [.required "account_name" .string a, .required "account_password" .string p,
      .required "account_privileges" Privileges.format r]
  | findSample c | deleteSamples c => [.required "condition" Profile.format c]
  | findRow u c | deleteRows u c =>
    [.required "unit" .string u, .required "condition" Profile.format c]
  | rowAttributes u => [.required "unit" .string u]
  | insertRow u p | updateRow u p =>
    [.required "unit" .string u, .required "profile" Profile.format p]
  | evaluator n => [.required "evaluator_name" .string n]

namespace Body

/-- The fields of a request with their values. -/
def slots : Body → List Slot
  | quit => []
  | control c a p =>
    [.required "control_command" ControlCommand.format c, .omittable "account_name" .string a,
      .omittable "account_password" .string p]
  | sessionAttribute a => [.required "attribute" .string a]
  | operation op => op.slots

/-- No field has the name of the action or of the flag for a binary reply. -/
theorem slots_names (b : Body) :
    ∀ x ∈ b.slots, x.name ≠ Request.actionField ∧ x.name ≠ Request.binaryField := by
  have hnames : (b.slots.all fun x =>
      x.name ≠ Request.actionField && x.name ≠ Request.binaryField) = true := by
    rcases b with _ | _ | _ | op
    · rfl
    · rfl
    · rfl
    · cases op <;> (try cases ‹Side›) <;> rfl
  intro x hx
  have hname := List.all_eq_true.mp hnames x hx
  simpa using hname

/-- The action of the body reads the fields of the body: for every value of its fields it
makes a body, the slots of which are the fields with these values. -/
def Laid (b : Body) : Prop :=
  ∃ (α : Type) (required : Privileges) (name : String) (fields : Fields α) (make : α → Body)
    (a : α), ActionForm.all[b.written.1]? = some (.needing required name fields make) ∧
      fields.Lays (fun a => (make a).slots) ∧ make a = b

/-- A body of the action at its place. -/
theorem Laid.of {α : Type} {b : Body} {required : Privileges} {name : String} {fields : Fields α}
    {make : α → Body} {s : α → List Slot}
    (hform : ActionForm.all[b.written.1]? = some (.needing required name fields make))
    (hlays : fields.Lays s) (a : α) (hmake : make a = b) (hslots : ∀ a, s a = (make a).slots) :
    Laid b :=
  ⟨α, required, name, fields, make, a, hform, funext hslots ▸ hlays, hmake⟩

/-- The field for a user or an item. -/
theorem idField_lays (s : Side) : (idField s).Lays fun a => [.required s.idField .int32 a] := by
  cases s <;> exact .required _ _

/-- The field for what another system calls a user or an item. -/
theorem externalField_lays (s : Side) :
    (externalField s).Lays fun a => [.required s.externalField .string a] := by
  cases s <;> exact .required _ _

/-- The fields of a recommendation for a user. -/
theorem recommendUserFields_lays : recommendUserFields.Lays fun p =>
    [.required "userid" .int32 p.1, .required "max_recommend" .int32 p.2] :=
  .and (.required _ _) (.required _ _) (by decide)

/-- The fields of an estimate. -/
theorem estimateFields_lays : estimateFields.Lays fun p =>
    [.required "recommend_param" RecommendTarget.format p.1,
      .required "queryids" IdSet.format p.2] :=
  .and (.required _ _) (.required _ _) (by decide)

/-- The fields of a recommendation for a target. -/
theorem recommendFields_lays : recommendFields.Lays fun p =>
    [.required "recommend_param" RecommendTarget.format p.1,
      .required "max_recommend" .int32 p.2] :=
  .and (.required _ _) (.required _ _) (by decide)

/-- The fields of a profile with its record in another system. -/
theorem profileWithRecord_lays : profileWithRecord.Lays fun p =>
    [.required "profile" Profile.format p.1,
      .omittable "external_record" ExternalRecord.format p.2] :=
  .and (.required _ _) (.omittable _ _) (by decide)

/-- The fields of a nominal attribute. -/
theorem nominalsFields_lays : nominalsFields.Lays fun p =>
    [.required "unit" .string p.1, .required "attribute" .string p.2] :=
  .and (.required _ _) (.required _ _) (by decide)

/-- The fields of a value of a nominal attribute. -/
theorem nominalFields_lays : nominalFields.Lays fun p =>
    [.required "unit" .string p.1, .required "attribute" .string p.2.1,
      .required "nominal" Nominal.format p.2.2] :=
  .and (.required _ _) (.and (.required _ _) (.required _ _) (by decide)) (by decide)

/-- The fields of an internal record and its external one. -/
theorem recordFields_lays : recordFields.Lays fun p =>
    [.required "internal_record" InternalRecord.format p.1,
      .required "external_record" ExternalRecord.format p.2] :=
  .and (.required _ _) (.required _ _) (by decide)

/-- The fields of credentials with the privileges asked for. -/
theorem accountFields_lays : accountFields.Lays fun p =>
    [.required "account_name" .string p.1, .required "account_password" .string p.2.1,
      .required "account_privileges" Privileges.format p.2.2] :=
  .and (.required _ _) (.and (.required _ _) (.required _ _) (by decide)) (by decide)

/-- The fields of a condition on a unit. -/
theorem unitConditionFields_lays : unitConditionFields.Lays fun p =>
    [.required "unit" .string p.1, .required "condition" Profile.format p.2] :=
  .and (.required _ _) (.required _ _) (by decide)

/-- The fields of a profile of a unit. -/
theorem unitProfileFields_lays : unitProfileFields.Lays fun p =>
    [.required "unit" .string p.1, .required "profile" Profile.format p.2] :=
  .and (.required _ _) (.required _ _) (by decide)

/-- The fields of a command. -/
theorem controlFields_lays : controlFields.Lays fun p =>
    [.required "control_command" ControlCommand.format p.1,
      .omittable "account_name" .string p.2.1, .omittable "account_password" .string p.2.2] :=
  .and (.required _ _) (.and (.omittable _ _) (.omittable _ _) (by decide)) (by decide)

/-- The action of every operation reads its fields. -/
theorem laid_operation (op : Operation) : Laid (.operation op) := by
  cases op with
  | estimate t items => exact .of rfl estimateFields_lays (t, items) rfl fun _ => rfl
  | recommend t n => exact .of rfl recommendFields_lays (t, n) rfl fun _ => rfl
  | recommendUser u n => exact .of rfl recommendUserFields_lays (u, n) rfl fun _ => rfl
  | insertRatings v => exact .of rfl (.required _ _) v rfl fun _ => rfl
  | updateRatings v => exact .of rfl (.required _ _) v rfl fun _ => rfl
  | deleteRatings v => exact .of rfl (.required _ _) v rfl fun _ => rfl
  | ids s => cases s <;> exact .of rfl .none () rfl fun _ => rfl
  | ratingsOf s i => cases s <;> exact .of rfl (idField_lays _) i rfl fun _ => rfl
  | allRatings s => cases s <;> exact .of rfl .none () rfl fun _ => rfl
  | ratingsBySql s sql => cases s <;> exact .of rfl (.required _ _) sql rfl fun _ => rfl
  | deleteRatingsOf s i => cases s <;> exact .of rfl (idField_lays _) i rfl fun _ => rfl
  | profileOf s i => cases s <;> exact .of rfl (idField_lays _) i rfl fun _ => rfl
  | profileOfExternal s value =>
    cases s <;> exact .of rfl (externalField_lays _) value rfl fun _ => rfl
  | profiles s => cases s <;> exact .of rfl .none () rfl fun _ => rfl
  | profilesBySql s sql => cases s <;> exact .of rfl (.required _ _) sql rfl fun _ => rfl
  | attributes s => cases s <;> exact .of rfl .none () rfl fun _ => rfl
  | insertProfile s p r => cases s <;> exact .of rfl profileWithRecord_lays (p, r) rfl fun _ => rfl
  | updateProfile s p => cases s <;> exact .of rfl (.required _ _) p rfl fun _ => rfl
  | deleteProfile s i => cases s <;> exact .of rfl (idField_lays _) i rfl fun _ => rfl
  | externalOf s i => cases s <;> exact .of rfl (idField_lays _) i rfl fun _ => rfl
  | nominals u a => exact .of rfl nominalsFields_lays (u, a) rfl fun _ => rfl
  | insertNominal u a n => exact .of rfl nominalFields_lays (u, a, n) rfl fun _ => rfl
  | updateNominal u a n => exact .of rfl nominalFields_lays (u, a, n) rfl fun _ => rfl
  | deleteNominals u a => exact .of rfl nominalsFields_lays (u, a) rfl fun _ => rfl
  | external r => exact .of rfl (.required _ _) r rfl fun _ => rfl
  | insertExternal r e => exact .of rfl recordFields_lays (r, e) rfl fun _ => rfl
  | updateExternal r e => exact .of rfl recordFields_lays (r, e) rfl fun _ => rfl
  | deleteExternal r => exact .of rfl (.required _ _) r rfl fun _ => rfl
  | validateAccount a p r => exact .of rfl accountFields_lays (a, p, r) rfl fun _ => rfl
  | findSample c => exact .of rfl (.required _ _) c rfl fun _ => rfl
  | samplesBySql sql => exact .of rfl (.required _ _) sql rfl fun _ => rfl
  | sampleAttributes => exact .of rfl .none () rfl fun _ => rfl
  | insertSample p => exact .of rfl (.required _ _) p rfl fun _ => rfl
  | updateSample p => exact .of rfl (.required _ _) p rfl fun _ => rfl
  | deleteSamples c => exact .of rfl (.required _ _) c rfl fun _ => rfl
  | findRow u c => exact .of rfl unitConditionFields_lays (u, c) rfl fun _ => rfl
  | rowsBySql sql => exact .of rfl (.required _ _) sql rfl fun _ => rfl
  | rowAttributes u => exact .of rfl (.required _ _) u rfl fun _ => rfl
  | insertRow u p => exact .of rfl unitProfileFields_lays (u, p) rfl fun _ => rfl
  | updateRow u p => exact .of rfl unitProfileFields_lays (u, p) rfl fun _ => rfl
  | deleteRows u c => exact .of rfl unitConditionFields_lays (u, c) rfl fun _ => rfl
  | snapshot => exact .of rfl .none () rfl fun _ => rfl
  | settings => exact .of rfl .none () rfl fun _ => rfl
  | evaluator n => exact .of rfl (.required _ _) n rfl fun _ => rfl
  | evaluatorNames => exact .of rfl .none () rfl fun _ => rfl

/-- The action of every body reads its fields. -/
theorem laid (b : Body) : Laid b := by
  cases b with
  | quit => exact .of rfl .none () rfl fun _ => rfl
  | control c a p => exact .of rfl controlFields_lays (c, a, p) rfl fun _ => rfl
  | sessionAttribute a => exact .of rfl (.required _ _) a rfl fun _ => rfl
  | operation op => exact laid_operation op

end Body

end RatingServer
