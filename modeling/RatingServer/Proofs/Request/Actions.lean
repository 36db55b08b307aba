import RatingServer.Proofs.Wire.Values

/-!
# Actions read what requests write

Every body of a request is written by the fields of one action, and that action
reads the body back from them. What an action reads is a body of its own, so that
every number of the body stands in the members that were read.
-/

namespace RatingServer

open Wire Json

namespace Body

/-- The field for a user or an item. -/
theorem idField_legible (s : Side) : (idField s).Legible 5 id := by
  cases s <;> exact .required _ (Legible.int32.mono (by decide))

/-- The field for what another system calls a user or an item. -/
theorem externalField_legible (s : Side) : (externalField s).Legible 5 id := by
  cases s <;> exact .required _ (Legible.string.mono (by decide))

/-- A field for a text. -/
theorem text_legible (name : String) : (Wire.required name .string).Legible 5 id :=
  .required name (Legible.string.mono (by decide))

/-- A field for a profile. -/
theorem profile_legible (name : String) : (Wire.required name Profile.format).Legible 5 id :=
  .required name (Profile.legible.mono (by decide))

/-- The field for a limit. -/
theorem limitField_legible : limitField.Legible 5 id :=
  .required _ (Legible.int32.mono (by decide))

/-- The field for a target. -/
theorem targetField_legible : targetField.Legible 5 id := .required _ RecommendTarget.legible

/-- The field for a rating vector. -/
theorem ratingsField_legible : ratingsField.Legible 5 id :=
  .required _ (RatingVector.legible.mono (by decide))

/-- The field for a nominal value. -/
theorem nominalField_legible : nominalField.Legible 5 id :=
  .required _ (Nominal.legible.mono (by decide))

/-- The field for an internal record. -/
theorem internalField_legible : internalField.Legible 5 id :=
  .required _ (InternalRecord.legible.mono (by decide))

/-- The field for an external record. -/
theorem recordField_legible : recordField.Legible 5 id :=
  .required _ (ExternalRecord.legible.mono (by decide))

/-- The fields of a recommendation for a user. -/
theorem recommendUserFields_legible : recommendUserFields.Legible 5 id :=
  (idField_legible .user).and limitField_legible (by decide)

/-- The fields of an estimate. -/
theorem estimateFields_legible : estimateFields.Legible 5 id :=
  targetField_legible.and (.required _ (IdSet.legible.mono (by decide))) (by decide)

/-- The fields of a recommendation for a target. -/
theorem recommendFields_legible : recommendFields.Legible 5 id :=
  targetField_legible.and limitField_legible (by decide)

/-- The fields of a profile with its record in another system. -/
theorem profileWithRecord_legible : profileWithRecord.Legible 5 id :=
  (profile_legible _).and
    (.omittable _ (ExternalRecord.legible.mono (by decide)) (Fields.Legible.format_ne_null _))
    (by decide)

/-- The fields of a nominal attribute. -/
theorem nominalsFields_legible : nominalsFields.Legible 5 id :=
  (text_legible _).and (text_legible _) (by decide)

/-- The fields of a value of a nominal attribute. -/
theorem nominalFields_legible : nominalFields.Legible 5 id :=
  (text_legible _).and ((text_legible _).and nominalField_legible (by decide)) (by decide)

/-- The fields of an internal record and its external one. -/
theorem recordFields_legible : recordFields.Legible 5 id :=
  internalField_legible.and recordField_legible (by decide)

/-- The fields of credentials with the privileges asked for. -/
theorem accountFields_legible : accountFields.Legible 5 id :=
  (text_legible _).and ((text_legible _).and
    (.required _ (Privileges.legible.mono (by decide))) (by decide)) (by decide)

/-- The fields of a condition on a unit. -/
theorem unitConditionFields_legible : unitConditionFields.Legible 5 id :=
  (text_legible _).and (profile_legible _) (by decide)

/-- The fields of a profile of a unit. -/
theorem unitProfileFields_legible : unitProfileFields.Legible 5 id :=
  (text_legible _).and (profile_legible _) (by decide)

/-- The fields of a command. -/
theorem controlFields_legible : controlFields.Legible 5 id := by
  have htext : Legible .string 5 := Legible.string.mono (by decide)
  exact (Fields.Legible.required _ (ControlCommand.legible.mono (by decide))).and
    ((Fields.Legible.omittable _ htext fun _ h => by cases h).and
      (.omittable _ htext fun _ h => by cases h) (by decide)) (by decide)

/-- The body is written and read by an action with legible fields, whose names are
not those of the members that every request has. -/
structure Sent (b : Body) : Prop where
  /-- The action, by its fields and the bodies that it makes of them. -/
  action : ∃ (α : Type) (required : Privileges) (name : String) (fields : Fields α)
    (make : α → Body) (a : α), fields.Legible 5 id ∧
      ActionForm.all[b.written.1]? = some (.needing required name fields make) ∧ make a = b ∧
      (∀ a, (make a).written.2 = fields.members a) ∧
      Request.actionField ∉ fields.names ∧ Request.binaryField ∉ fields.names

/-- A body of the action at its place. -/
theorem Sent.of {α : Type} {b : Body} {required : Privileges} {name : String} {fields : Fields α}
    {make : α → Body}
    (hform : ActionForm.all[b.written.1]? = some (.needing required name fields make))
    (hfields : fields.Legible 5 id) (a : α) (hmake : make a = b)
    (hwritten : ∀ a, (make a).written.2 = fields.members a)
    (haction : Request.actionField ∉ fields.names)
    (hbinary : Request.binaryField ∉ fields.names) : Sent b :=
  ⟨α, required, name, fields, make, a, hfields, hform, hmake, hwritten, haction, hbinary⟩

/-- Every operation is sent. -/
theorem sent_operation (op : Operation) : Sent (.operation op) := by
  cases op with
  | estimate t items =>
    exact .of rfl estimateFields_legible (t, items) rfl (fun _ => rfl) (by decide) (by decide)
  | recommend t n =>
    exact .of rfl recommendFields_legible (t, n) rfl (fun _ => rfl) (by decide) (by decide)
  | recommendUser u n =>
    exact .of rfl recommendUserFields_legible (u, n) rfl (fun _ => rfl) (by decide) (by decide)
  | insertRatings v =>
    exact .of rfl ratingsField_legible v rfl (fun _ => rfl) (by decide) (by decide)
  | updateRatings v =>
    exact .of rfl ratingsField_legible v rfl (fun _ => rfl) (by decide) (by decide)
  | deleteRatings v =>
    exact .of rfl ratingsField_legible v rfl (fun _ => rfl) (by decide) (by decide)
  | ids s =>
    cases s <;> exact .of rfl .none () rfl (fun _ => rfl) (by decide) (by decide)
  | ratingsOf s i =>
    cases s <;> exact .of rfl (idField_legible _) i rfl (fun _ => rfl) (by decide) (by decide)
  | allRatings s =>
    cases s <;> exact .of rfl .none () rfl (fun _ => rfl) (by decide) (by decide)
  | ratingsBySql s sql =>
    cases s <;> exact .of rfl (text_legible _) sql rfl (fun _ => rfl) (by decide) (by decide)
  | deleteRatingsOf s i =>
    cases s <;> exact .of rfl (idField_legible _) i rfl (fun _ => rfl) (by decide) (by decide)
  | profileOf s i =>
    cases s <;> exact .of rfl (idField_legible _) i rfl (fun _ => rfl) (by decide) (by decide)
  | profileOfExternal s value =>
    cases s <;> exact .of rfl (externalField_legible _) value rfl (fun _ => rfl) (by decide) (by decide)
  | profiles s =>
    cases s <;> exact .of rfl .none () rfl (fun _ => rfl) (by decide) (by decide)
  | profilesBySql s sql =>
    cases s <;> exact .of rfl (text_legible _) sql rfl (fun _ => rfl) (by decide) (by decide)
  | attributes s =>
    cases s <;> exact .of rfl .none () rfl (fun _ => rfl) (by decide) (by decide)
  | insertProfile s p r =>
    cases s <;> exact .of rfl profileWithRecord_legible (p, r) rfl (fun _ => rfl) (by decide) (by decide)
  | updateProfile s p =>
    cases s <;> exact .of rfl (profile_legible _) p rfl (fun _ => rfl) (by decide) (by decide)
  | deleteProfile s i =>
    cases s <;> exact .of rfl (idField_legible _) i rfl (fun _ => rfl) (by decide) (by decide)
  | externalOf s i =>
    cases s <;> exact .of rfl (idField_legible _) i rfl (fun _ => rfl) (by decide) (by decide)
  | nominals u a =>
    exact .of rfl nominalsFields_legible (u, a) rfl (fun _ => rfl) (by decide) (by decide)
  | insertNominal u a n =>
    exact .of rfl nominalFields_legible (u, a, n) rfl (fun _ => rfl) (by decide) (by decide)
  | updateNominal u a n =>
    exact .of rfl nominalFields_legible (u, a, n) rfl (fun _ => rfl) (by decide) (by decide)
  | deleteNominals u a =>
    exact .of rfl nominalsFields_legible (u, a) rfl (fun _ => rfl) (by decide) (by decide)
  | external r => exact .of rfl internalField_legible r rfl (fun _ => rfl) (by decide) (by decide)
  | insertExternal r e =>
    exact .of rfl recordFields_legible (r, e) rfl (fun _ => rfl) (by decide) (by decide)
  | updateExternal r e =>
    exact .of rfl recordFields_legible (r, e) rfl (fun _ => rfl) (by decide) (by decide)
  | deleteExternal r =>
    exact .of rfl internalField_legible r rfl (fun _ => rfl) (by decide) (by decide)
  | validateAccount a p r =>
    exact .of rfl accountFields_legible (a, p, r) rfl (fun _ => rfl) (by decide) (by decide)
  | findSample c => exact .of rfl (profile_legible _) c rfl (fun _ => rfl) (by decide) (by decide)
  | samplesBySql sql =>
    exact .of rfl (text_legible _) sql rfl (fun _ => rfl) (by decide) (by decide)
  | sampleAttributes => exact .of rfl .none () rfl (fun _ => rfl) (by decide) (by decide)
  | insertSample p => exact .of rfl (profile_legible _) p rfl (fun _ => rfl) (by decide) (by decide)
  | updateSample p => exact .of rfl (profile_legible _) p rfl (fun _ => rfl) (by decide) (by decide)
  | deleteSamples c =>
    exact .of rfl (profile_legible _) c rfl (fun _ => rfl) (by decide) (by decide)
  | findRow u c =>
    exact .of rfl unitConditionFields_legible (u, c) rfl (fun _ => rfl) (by decide) (by decide)
  | rowsBySql sql => exact .of rfl (text_legible _) sql rfl (fun _ => rfl) (by decide) (by decide)
  | rowAttributes u => exact .of rfl (text_legible _) u rfl (fun _ => rfl) (by decide) (by decide)
  | insertRow u p =>
    exact .of rfl unitProfileFields_legible (u, p) rfl (fun _ => rfl) (by decide) (by decide)
  | updateRow u p =>
    exact .of rfl unitProfileFields_legible (u, p) rfl (fun _ => rfl) (by decide) (by decide)
  | deleteRows u c =>
    exact .of rfl unitConditionFields_legible (u, c) rfl (fun _ => rfl) (by decide) (by decide)
  | snapshot => exact .of rfl .none () rfl (fun _ => rfl) (by decide) (by decide)
  | settings => exact .of rfl .none () rfl (fun _ => rfl) (by decide) (by decide)
  | evaluator n => exact .of rfl (text_legible _) n rfl (fun _ => rfl) (by decide) (by decide)
  | evaluatorNames => exact .of rfl .none () rfl (fun _ => rfl) (by decide) (by decide)

/-- Every body is sent. -/
theorem sent (b : Body) : Sent b := by
  cases b with
  | quit => exact .of rfl .none () rfl (fun _ => rfl) (by decide) (by decide)
  | control c a p =>
    exact .of rfl controlFields_legible (c, a, p) rfl (fun _ => rfl) (by decide) (by decide)
  | sessionAttribute a =>
    exact .of rfl (text_legible _) a rfl (fun _ => rfl) (by decide) (by decide)
  | operation op => exact sent_operation op

/-- What is written of a body is read as the body by the action at its place. -/
theorem read_written (b : Body) :
    ∃ form, ActionForm.all[b.written.1]? = some form ∧ form.read (toMembers b.written.2) = .ok b := by
  obtain ⟨α, required, name, fields, make, a, hfields, hform, rfl, hwritten, -, -⟩ := (sent b).action
  refine ⟨_, hform, ?_⟩
  show (fields.ofMembers .kept (toMembers (make a).written.2) true).map make = .ok (make a)
  rw [hwritten, hfields.ofMembers_members]
  rfl

/-- The fields of a body have other names than the members that every request has. -/
theorem written_names (b : Body) : ∀ m ∈ b.written.2,
    m.1 ≠ Request.actionField ∧ m.1 ≠ Request.binaryField := by
  obtain ⟨α, required, name, fields, make, a, hfields, -, rfl, hwritten, haction, hbinary⟩ :=
    (sent b).action
  intro m hm
  rw [hwritten] at hm
  have hname := hfields.member_names a m hm
  exact ⟨fun h => haction (h ▸ hname), fun h => hbinary (h ▸ hname)⟩

/-- The fields of a body nest at most five levels. -/
theorem written_kept (b : Body) {n : Nat} (hn : 5 ≤ n) :
    ∀ m ∈ b.written.2, m.2.toDocument.isKept n = true := by
  obtain ⟨α, required, name, fields, make, a, hfields, -, rfl, hwritten, -, -⟩ := (sent b).action
  intro m hm
  rw [hwritten] at hm
  exact hfields.kept_member a n hn m hm

/-- The integers of a body fit the machine words. -/
theorem written_fits (b : Body) :
    ∀ m ∈ b.written.2, ∀ k, Decimal.Number.integer k ∈ m.2.numbers → fitsWord k = true := by
  obtain ⟨α, required, name, fields, make, a, hfields, -, rfl, hwritten, -, -⟩ := (sent b).action
  intro m hm
  rw [hwritten] at hm
  exact hfields.fits_member a m hm

end Body

namespace ActionForm

/-- The actions read bodies that are written at their own places. -/
def PlacedFrom : Nat → List ActionForm → Prop
  | _, [] => True
  | i, form :: forms =>
    (∀ ms b, form.read ms = .ok b → b.written.1 = i) ∧ PlacedFrom (i + 1) forms

/-- An action reads only the bodies that it makes of its fields. -/
theorem place_needing {α : Type} {required : Privileges} {name : String} {fields : Fields α}
    {make : α → Body} {i : Nat} (h : ∀ a, (make a).written.1 = i)
    (ms : List (Option String × Document)) (b : Body)
    (hb : (needing required name fields make).read ms = .ok b) : b.written.1 = i := by
  obtain ⟨a, -, rfl⟩ := map_eq_ok.mp hb
  exact h a

/-- Every action reads bodies that are written at its place. -/
theorem placed_all : PlacedFrom 0 all := by
  repeat refine And.intro (place_needing fun _ => rfl) ?_
  trivial

/-- The place of an action among others. -/
theorem PlacedFrom.place_eq {forms : List ActionForm} {i j : Nat} {form : ActionForm}
    (h : PlacedFrom i forms) (hform : forms[j]? = some form)
    {ms : List (Option String × Document)} {b : Body} (hb : form.read ms = .ok b) :
    b.written.1 = i + j := by
  induction forms generalizing i j with
  | nil => cases hform
  | cons f fs ih =>
    cases j with
    | zero =>
      cases hform
      exact h.1 ms b hb
    | succ j =>
      have hrest := ih h.2 hform
      omega

/-- A body that an action read holds only numbers of the members that were read. -/
theorem shown_read {form : ActionForm} (hform : form ∈ all)
    {ms : List (Option String × Document)} {b : Body} (hb : form.read ms = .ok b)
    {m : String × Json} (hm : m ∈ b.written.2) {x : Double} (hx : Holds m.2 x) :
    ∃ m' ∈ ms, Shows m'.2 x := by
  obtain ⟨j, hj⟩ := List.mem_iff_getElem?.mp hform
  have hplace := placed_all.place_eq hj hb
  rw [Nat.zero_add] at hplace
  obtain ⟨α, required, name, fields, make, a, hfields, hsent, -, hwritten, -, -⟩ :=
    (Body.sent b).action
  rw [hplace, hj, Option.some.injEq] at hsent
  subst hsent
  obtain ⟨a', ha', rfl⟩ := map_eq_ok.mp hb
  rw [hwritten] at hm
  exact hfields.shown_ofMembers ha' hm hx

end ActionForm

end RatingServer
