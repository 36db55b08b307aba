import RatingServer.Proofs.Wire.Choosing
import RatingServer.Proofs.Wire.Recording
import RatingServer.Request
import RatingServer.Response

/-!
# The exchanged values read what they write

Every format of the data of the service is legible. Results are seen by a reader
with each row cursor before its first row, and so are responses.
-/

namespace RatingServer

open Wire

/-- Types of attributes. -/
theorem AttributeType.legible : Legible AttributeType.format 1 :=
  .names (by decide) fun t => by cases t <;> decide

/-- Attributes. -/
theorem Attribute.legible : Legible Attribute.format 2 :=
  ((Fields.Legible.required "name" (Legible.string.mono (by decide))).and
    ((Fields.Legible.required "kind" AttributeType.legible).and
      (.required "key" (Legible.bool.mono (by decide))) (by decide)) (by decide)).map
    (fun _ => rfl) (fun _ => rfl) |>.format

/-- Attribute lists. -/
theorem AttributeList.legible : Legible AttributeList.format 4 :=
  ((Fields.Legible.required "attributes" Attribute.legible.list).map
    (fun _ => rfl) fun _ => rfl).format

/-- Values of attributes. -/
theorem AttributeValue.legible : Legible AttributeValue.format 1 := by
  refine LegibleAs.choice (by decide) (fun a => ?_) fun v hv => ?_
  · cases a with
    | bit b => exact .payload rfl Legible.bool
    | nominal i => exact .payload rfl Legible.int32
    | integer n => exact .payload rfl Legible.int64
    | real x => exact .payload rfl Legible.float
    | string s => exact .payload rfl Legible.string
    | time t => exact .payload rfl Legible.uint64
    | missing => exact .bareName rfl
  · simp only [List.mem_cons, List.not_mem_nil, or_false] at hv
    rcases hv with rfl | rfl | rfl | rfl | rfl | rfl | rfl
    · exact .of_payload Legible.bool fun _ => ⟨0, rfl⟩
    · exact .of_payload Legible.int32 fun _ => ⟨1, rfl⟩
    · exact .of_payload Legible.int64 fun _ => ⟨2, rfl⟩
    · exact .of_payload Legible.float fun _ => ⟨3, rfl⟩
    · exact .of_payload Legible.string fun _ => ⟨4, rfl⟩
    · exact .of_payload Legible.uint64 fun _ => ⟨5, rfl⟩
    · exact .of_bareName rfl

/-- Profiles. -/
theorem Profile.legible : Legible Profile.format 3 :=
  ((Fields.Legible.required "id" (Legible.int32.mono (by decide))).and
    (.required "values" AttributeValue.legible.table) (by decide)).map
    (fun _ => rfl) (fun _ => rfl) |>.format

/-- Ratings. -/
theorem Rating.legible : Legible Rating.format 1 :=
  ((Fields.Legible.required "value" .float).and
    (.optional "rated_at" .uint64 fun _ h => by cases h) (by decide)).map
    (fun _ => rfl) (fun _ => rfl) |>.format

/-- Sides. -/
theorem Side.legible : Legible Side.format 1 :=
  .names (by decide) fun s => by cases s <;> decide

/-- The ratings of a vector, as a list of pairs. -/
theorem RatingVector.legible_ratings :
    Legible ((Format.list (.pair .int32 Rating.format)).map
      (Table.ofList (α := Rating) (κ := Int32)) Table.entries) 3 := by
  have hlist := (Legible.pair (Legible.int32.mono (by decide)) Rating.legible).list
  refine hlist.map (fun t => Table.ofList_entries t) fun l x hx => ?_
  obtain ⟨j, hj, hx⟩ := Json.mem_numbers_arr.mp hx
  obtain ⟨e, he, rfl⟩ := List.mem_map.mp hj
  exact Json.mem_numbers_arr.mpr
    ⟨_, List.mem_map_of_mem (Table.mem_of_mem_entries_ofList he), hx⟩

/-- Rating vectors. -/
theorem RatingVector.legible : Legible RatingVector.format 4 :=
  ((Fields.Legible.required "id" (Legible.int32.mono (by decide))).and
    ((Fields.Legible.required "kind" (Side.legible.mono (by decide))).and
      (.required "ratings" RatingVector.legible_ratings) (by decide)) (by decide)).map
    (fun _ => rfl) (fun _ => rfl) |>.format

/-- Targets of recommendations. -/
theorem RecommendTarget.legible : Legible RecommendTarget.format 5 :=
  ((Fields.Legible.required "rating_vector" RatingVector.legible).and
    (.optional "profile" (Profile.legible.mono (by decide)) (Fields.Legible.format_ne_null _))
    (by decide)).map (fun _ => rfl) (fun _ => rfl) |>.format

/-- Sets of identifiers. -/
theorem IdSet.legible : Legible IdSet.format 1 := by
  refine Legible.map (Legible.list .int32) (fun t => Table.ofList_keys_unit t) fun l x hx => ?_
  obtain ⟨j, hj, hx⟩ := Json.mem_numbers_arr.mp hx
  obtain ⟨k, -, rfl⟩ := List.mem_map.mp hj
  exact absurd hx Legible.not_holds_int

/-- External records. -/
theorem ExternalRecord.legible : Legible ExternalRecord.format 1 :=
  ((Fields.Legible.required "unit" .string).and
    ((Fields.Legible.required "attribute" .string).and (.required "value" .string) (by decide))
    (by decide)).map (fun _ => rfl) (fun _ => rfl) |>.format

/-- Internal records. -/
theorem InternalRecord.legible : Legible InternalRecord.format 1 :=
  ((Fields.Legible.required "unit" .string).and
    ((Fields.Legible.required "attribute" .string).and (.required "value" .int32) (by decide))
    (by decide)).map (fun _ => rfl) (fun _ => rfl) |>.format

/-- Settings. -/
theorem Settings.legible : Legible Settings.format 1 := Legible.string.table

/-- Nominal values. -/
theorem Nominal.legible : Legible Nominal.format 1 :=
  ((Fields.Legible.required "value" .string).and
    ((Fields.Legible.required "index" .int32).and (.required "parent_index" .int32) (by decide))
    (by decide)).map (fun _ => rfl) (fun _ => rfl) |>.format

/-- Nominal lists. -/
theorem NominalList.legible : Legible NominalList.format 3 :=
  ((Fields.Legible.required "unit" (Legible.string.mono (by decide))).and
    ((Fields.Legible.required "attribute" (Legible.string.mono (by decide))).and
      (.required "nominals" Nominal.legible.list) (by decide)) (by decide)).map
    (fun _ => rfl) (fun _ => rfl) |>.format

/-- Snapshots. -/
theorem Snapshot.legible : Legible Snapshot.format 6 :=
  ((Fields.Legible.required "config" (Settings.legible.mono (by decide))).and
    ((Fields.Legible.required "user_ratings" RatingVector.legible.list).and
      ((Fields.Legible.required "user_profiles" (Profile.legible.list.mono (by decide))).and
        ((Fields.Legible.required "item_profiles" (Profile.legible.list.mono (by decide))).and
          ((Fields.Legible.required "nominals" (NominalList.legible.list.mono (by decide))).and
            (.required "external_records"
              ((InternalRecord.legible.pair ExternalRecord.legible).list.mono (by decide)))
            (by decide)) (by decide)) (by decide)) (by decide)) (by decide)).map
    (fun _ => rfl) (fun _ => rfl) |>.format

/-- Evaluators. -/
theorem Evaluator.legible : Legible Evaluator.format 1 :=
  ((Fields.Legible.required "name" .string).and
    ((Fields.Legible.required "version" .string).and
      (.optional "bind_uri" .string fun _ h => by cases h) (by decide)) (by decide)).map
    (fun _ => rfl) (fun _ => rfl) |>.format

/-- Privileges. -/
theorem Privileges.legible : Legible Privileges.format 0 :=
  Legible.uint32.map (fun _ => rfl) fun _ _ hx => hx

/-- Commands. -/
theorem ControlCommand.legible : Legible ControlCommand.format 1 :=
  .names (by decide) fun c => by cases c <;> decide

/-- Reasons of a rejected change. -/
theorem LifecycleError.legible : Legible LifecycleError.format 1 :=
  .names (by decide) fun e => by cases e <;> decide

/-- Failures. -/
theorem Failure.legible : Legible Failure.format 2 := by
  have hstring : Legible .string 1 := Legible.string.mono (by decide)
  refine LegibleAs.choice (by decide) (fun f => ?_) fun v hv => ?_
  · cases f with
    | permissionDenied => exact .bareName rfl
    | notAuthenticated => exact .bareName rfl
    | notRunning => exact .bareName rfl
    | invalidRequest reason => exact .payload rfl hstring
    | unsupported operation => exact .payload rfl hstring
    | lifecycle error => exact .payload rfl LifecycleError.legible
    | internal reason => exact .payload rfl hstring
  · simp only [List.mem_cons, List.not_mem_nil, or_false] at hv
    rcases hv with rfl | rfl | rfl | rfl | rfl | rfl | rfl
    · exact .of_bareName rfl
    · exact .of_bareName rfl
    · exact .of_bareName rfl
    · exact .of_payload hstring fun _ => ⟨3, rfl⟩
    · exact .of_payload hstring fun _ => ⟨4, rfl⟩
    · exact .of_payload LifecycleError.legible fun _ => ⟨5, rfl⟩
    · exact .of_payload hstring fun _ => ⟨6, rfl⟩

/-- A result with its row cursor, if it is one, before the first row. -/
def ResultKind.reset : (kind : ResultKind) → kind.Value → kind.Value
  | .ratingRows => RowCursor.reset
  | .profileRows => RowCursor.reset
  | .idRows => RowCursor.reset
  | .attributes | .flag | .settings | .nominals | .profile | .snapshot | .text | .texts
  | .ratings | .record | .evaluator => id

/-- Results, of which a reader sees a cursor before the first row. -/
theorem ResultKind.legible (kind : ResultKind) : LegibleAs kind.format 6 kind.reset := by
  cases kind with
  | attributes => exact AttributeList.legible.mono (by decide)
  | flag => exact Legible.bool.mono (by decide)
  | settings => exact Settings.legible.mono (by decide)
  | ratingRows => exact legibleAs_rows RatingVector.legible
  | profileRows => exact (legibleAs_rows Profile.legible).mono (by decide)
  | idRows => exact (legibleAs_rows Legible.int32).mono (by decide)
  | nominals => exact NominalList.legible.mono (by decide)
  | profile => exact Profile.legible.mono (by decide)
  | snapshot => exact Snapshot.legible
  | text => exact Legible.string.mono (by decide)
  | texts => exact Legible.string.list.mono (by decide)
  | ratings => exact RatingVector.legible.mono (by decide)
  | record => exact ExternalRecord.legible.mono (by decide)
  | evaluator => exact Evaluator.legible.mono (by decide)

/-- A response with every row cursor before its first row. -/
def Response.reset : Response → Response
  | .empty => .empty
  | .result kind value => .result kind (kind.reset value)
  | .failure f => .failure f

/-- Responses, of which a reader sees every cursor before its first row. -/
theorem Response.legible : LegibleAs Response.format 7 Response.reset := by
  have hfailure : Legible Failure.format 6 := Failure.legible.mono (by decide)
  refine LegibleAs.choice (by decide) (fun r => ?_) fun v hv => ?_
  · cases r with
    | empty => exact .bareName rfl
    | result kind value =>
      refine .payload (?_ : _ = some (Response.variantOf kind)) kind.legible
      cases kind <;> rfl
    | failure f => exact .payload rfl hfailure
  · rw [List.mem_append, List.mem_cons, List.mem_map, List.mem_singleton] at hv
    rcases hv with (rfl | ⟨kind, -, rfl⟩) | rfl
    · exact .of_bareName rfl
    · exact .of_payload kind.legible fun _ => ⟨_, rfl⟩
    · exact .of_payload hfailure fun _ => ⟨15, rfl⟩

end RatingServer
