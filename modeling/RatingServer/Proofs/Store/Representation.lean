import RatingServer.Proofs.Store.Nominals

/-!
# How the data of a store are kept

Whatever operations are performed on an empty store, its vectors stand under their users and
have ratings, its profiles stand under their own identifiers, and its nominal lists stand
under their units and attributes with values of distinct indexes. The external record of a
profile goes with the profile: after a deletion that found it, there is no record under the
key attribute until one is inserted again.
-/

namespace RatingServer

/-- The operations that insert an external record, by itself or with a profile. -/
def Operation.InsertsRecord (i : InternalRecord) : Operation → Prop
  | insertProfile side p (some _) => i = Dataset.recordOf side.name p.id
  | insertExternal j _ => i = j
  | _ => False

instance (i : InternalRecord) (op : Operation) : Decidable (op.InsertsRecord i) := by
  unfold Operation.InsertsRecord
  split <;> infer_instance

namespace Store

/-- The deletions of the profile of a unit and identifier: they answer that they found
something, and they name the identifier or a condition that the profile satisfies. -/
inductive Deletes (s : Store) (unit : String) (id : Int32) : Operation → Prop where
  /-- The deletion of a user or item. -/
  | ofSide {side : Side} (hunit : unit = side.name)
    (found : (perform (.deleteProfile side id) s).1 = .ok true) :
    Deletes s unit id (.deleteProfile side id)
  /-- A deletion of samples. -/
  | samples {c p : Profile} (hunit : unit = sampleUnit)
    (there : s.profileMap unit id = some p) (hc : p.satisfies c = true)
    (found : (perform (.deleteSamples c) s).1 = .ok true) : Deletes s unit id (.deleteSamples c)
  /-- A deletion for any unit. -/
  | rows {c p : Profile} (there : s.profileMap unit id = some p) (hc : p.satisfies c = true)
    (found : (perform (.deleteRows unit c) s).1 = .ok true) :
    Deletes s unit id (.deleteRows unit c)

/-- An operation that writes profiles does to each what the write does. -/
theorem profileTouch_of_write {s : Store} {op : Operation} {w : ProfileWrite}
    (h : op.profileWrite? = some w) (unit : String) (id : Int32) :
    profileTouch unit id s op = w.touch unit id (s.profileMap unit id) := by
  rw [profileTouch, h]

/-- The deletions of a profile are the operations that clear its place. -/
theorem deletes_iff {s : Store} (h : s.data.Sound) {unit : String} {id : Int32}
    {op : Operation} : s.Deletes unit id op ↔ profileTouch unit id s op = .clears := by
  have hmatch : ∀ {unit : String} {c p : Profile}, s.profileMap unit id = some p →
      p.satisfies c = true → (s.profileMap unit id).any (·.satisfies c) = true :=
    fun there hc => (Option.any_eq_true _ _).mpr ⟨_, there, hc⟩
  have hfinds : ∀ {unit : String} {c p : Profile}, s.profileMap unit id = some p →
      p.satisfies c = true → (s.data.deleteMatching unit c).1 = true := fun there hc =>
    (h.writeProfiles_found (.deleteMatching _ _)).mpr ⟨id, hmatch there hc⟩
  constructor
  · intro hdeletes
    cases hdeletes with
    | ofSide hunit found =>
      have hthere := (h.writeProfiles_found (.delete _ id)).mp (Except.ok.inj found)
      exact ProfileWrite.touch_delete_eq_clears.mpr ⟨hunit, rfl, hunit ▸ hthere⟩
    | samples hunit there hc =>
      rw [profileTouch_of_write rfl, ProfileWrite.touch_deleteMatching_eq_clears]
      exact ⟨hunit, hmatch there hc⟩
    | rows there hc =>
      rw [profileTouch_of_write rfl, ProfileWrite.touch_deleteMatching_eq_clears]
      exact ⟨rfl, hmatch there hc⟩
  · intro hclears
    cases op with
    | deleteProfile side deleted =>
      obtain ⟨rfl, rfl, hthere⟩ := ProfileWrite.touch_delete_eq_clears.mp hclears
      have hfound := (h.writeProfiles_found (.delete side.name id)).mpr hthere
      exact .ofSide rfl (congrArg Except.ok hfound)
    | deleteSamples c =>
      rw [profileTouch_of_write rfl, ProfileWrite.touch_deleteMatching_eq_clears] at hclears
      obtain ⟨rfl, hany⟩ := hclears
      obtain ⟨p, there, hc⟩ := (Option.any_eq_true _ _).mp hany
      exact .samples rfl there hc (congrArg Except.ok (hfinds there hc))
    | deleteRows written c =>
      rw [profileTouch_of_write rfl, ProfileWrite.touch_deleteMatching_eq_clears] at hclears
      obtain ⟨rfl, hany⟩ := hclears
      obtain ⟨p, there, hc⟩ := (Option.any_eq_true _ _).mp hany
      exact .rows there hc (congrArg Except.ok (hfinds there hc))
    | insertProfile _ _ _ | insertSample _ | insertRow _ _ =>
      rw [profileTouch_of_write rfl] at hclears
      exact absurd hclears (ProfileWrite.touch_insert_ne_clears _)
    | updateProfile _ _ | updateSample _ | updateRow _ _ =>
      rw [profileTouch_of_write rfl] at hclears
      exact absurd hclears (ProfileWrite.touch_update_ne_clears _)
    | _ => cases hclears

/-- A deletion finds the profile. -/
theorem Deletes.there {s : Store} (h : s.data.Sound) {unit : String} {id : Int32}
    {op : Operation} (hdeletes : s.Deletes unit id op) : s.profileMap unit id ≠ none := by
  cases hdeletes with
  | ofSide hunit found =>
    have hthere := (h.writeProfiles_found (.delete _ id)).mp (Except.ok.inj found)
    exact Option.isSome_iff_ne_none.mp (hunit ▸ hthere)
  | samples hunit there hc => rw [there]; exact nofun
  | rows there hc => rw [there]; exact nofun

/-- The deletions of a profile are the operations after which it is gone. -/
theorem deletes_iff_gone {s : Store} (h : s.data.Sound) {unit : String} {id : Int32}
    {op : Operation} :
    s.Deletes unit id op ↔
      s.profileMap unit id ≠ none ∧ (perform op s).2.profileMap unit id = none := by
  rw [profile_perform h]
  constructor
  · intro hdeletes
    refine ⟨hdeletes.there h, ?_⟩
    rw [(deletes_iff h).mp hdeletes, Touch.on]
  · rintro ⟨hthere, hgone⟩
    obtain ⟨p, hp⟩ := Option.ne_none_iff_exists'.mp hthere
    rw [hp] at hgone
    exact (deletes_iff h).mpr (Classical.not_not.mp fun hne => Touch.on_some_ne_none hne hgone)

/-- A deletion of a profile leaves no record under its key attribute. -/
theorem Deletes.external_perform {s : Store} (h : s.data.Sound) {unit : String} {id : Int32}
    {op : Operation} (hdeletes : s.Deletes unit id op) :
    (perform op s).2.data.external.get? (Dataset.recordOf unit id) = none := by
  have hclears := (deletes_iff h).mp hdeletes
  rw [Store.external_perform h]
  cases s.changes op with
  | profiles w write _ records =>
    rw [profileTouch_of_write write] at hclears
    rw [records, ProfileWrite.recordTouch, if_pos ⟨rfl, hclears⟩, Touch.on]
  | profileWithRecord side p e operation =>
    subst operation
    rw [profileTouch_of_write rfl] at hclears
    exact absurd hclears (ProfileWrite.touch_insert_ne_clears _)
  | insertedRecord j e operation | updatedRecord j e operation | deletedRecord j operation =>
    subst operation
    cases hclears
  | neither write _ =>
    rw [profileTouch, write] at hclears
    cases hclears

/-- A record that is not there is not there after an operation that does not insert it. -/
theorem external_perform_eq_none {s : Store} (h : s.data.Sound) {i : InternalRecord}
    (hnone : s.data.external.get? i = none) {op : Operation} (hop : ¬op.InsertsRecord i) :
    (perform op s).2.data.external.get? i = none := by
  rw [external_perform h, hnone]
  cases s.changes op with
  | profiles w _ _ records =>
    rw [records, ProfileWrite.recordTouch, Touch.on_ite]
    split
    · rfl
    · rfl
  | profileWithRecord side p e operation =>
    subst operation
    have hother : s.recordTouch i (.insertProfile side p (some e)) = .leaves := if_neg hop
    rw [hother, Touch.on]
  | insertedRecord j e operation =>
    subst operation
    have hother : s.recordTouch i (.insertExternal j e) = .leaves := if_neg hop
    rw [hother, Touch.on]
  | updatedRecord j e operation =>
    subst operation
    have hnot : ¬(i = j ∧ (s.data.external.get? i).isSome = true) := fun hand => by
      rw [hnone] at hand
      cases hand.2
    rw [recordTouch, if_neg hnot, Touch.on]
  | deletedRecord j operation =>
    subst operation
    rw [recordTouch, Touch.on_ite]
    split
    · rfl
    · rfl
  | neither _ records => rw [records, Touch.on]

/-- A record that is not there is not there after operations that do not insert it. -/
theorem external_performAll_eq_none {s : Store} (h : s.data.Sound) {i : InternalRecord}
    (hnone : s.data.external.get? i = none) {ops : List Operation}
    (hops : ∀ op ∈ ops, ¬op.InsertsRecord i) :
    (s.performAll ops).data.external.get? i = none := by
  induction ops generalizing s with
  | nil => exact hnone
  | cons op ops ih =>
    obtain ⟨hop, hrest⟩ := List.forall_mem_cons.mp hops
    exact ih (sound_perform h op) (external_perform_eq_none h hnone hop) hrest

/-- How the data of a store are kept after operations. -/
structure WellKept (s : Store) (ops : List Operation) : Prop where
  /-- Every vector of ratings has the user under whom it stands, is one of a user and has
  ratings. -/
  vectors : ∀ user row, (s.performAll ops).data.ratings.get? user = some row →
    row.id = user ∧ row.side = .user ∧ row.ratings.isEmpty = false
  /-- Every profile has the identifier under which it stands. -/
  profiles : ∀ unit rows, (s.performAll ops).data.profiles.get? unit = some rows →
    ∀ id p, rows.get? id = some p → p.id = id
  /-- Every nominal list has the unit and the attribute under which it stands, and values of
  distinct indexes. -/
  nominals : ∀ key l, (s.performAll ops).data.nominals.get? key = some l →
    l.unit = key.unit ∧ l.attr = key.attr ∧ l.nominals ≠ [] ∧ (l.nominals.map (·.index)).Nodup
  /-- After a deletion of a profile there is no record under its key attribute until one is
  inserted. -/
  records : ∀ unit id before op after, ops = before ++ op :: after →
    (s.performAll before).Deletes unit id op →
    (∀ later ∈ after, ¬later.InsertsRecord (Dataset.recordOf unit id)) →
    (s.performAll ops).data.external.get? (Dataset.recordOf unit id) = none
  /-- Every operation after which a profile is gone is such a deletion. -/
  deleted : ∀ unit id before op after, ops = before ++ op :: after →
    (s.performAll before).profileMap unit id ≠ none →
    (s.performAll (before ++ [op])).profileMap unit id = none →
    (s.performAll before).Deletes unit id op

/-- Operations on an empty store keep its data well: vectors, profiles and nominal lists
stand under their own keys, and no record outlives its profile but by an insertion. -/
theorem kept_performAll (config : ServerConfig) (accounts : Accounts) (evaluators : List String)
    (ops : List Operation) : (of config accounts evaluators).WellKept ops := by
  have hreachable : ∀ ops, ((of config accounts evaluators).performAll ops).Reachable :=
    (Reachable.new config accounts evaluators).performAll
  have hsound := fun ops => (hreachable ops).sound
  refine ⟨fun user row hrow => ?_, fun unit rows hrows id p hp => ?_, fun key l hl => ?_,
    fun unit id before op after hsplit hdeletes hafter => ?_,
    fun unit id before op after _ hthere hgone => ?_⟩
  · obtain ⟨hof, hnonempty⟩ := (hsound ops).rows user row hrow
    exact ⟨hof.id_eq, hof.side_eq, hnonempty⟩
  · exact (hsound ops).profiles unit rows hrows id p hp
  · have hof := (hreachable ops).listed key l hl
    exact ⟨hof.unit_eq, hof.attr_eq, hof.ne_nil, hof.nodup⟩
  · subst hsplit
    rw [performAll_append]
    exact external_performAll_eq_none (sound_perform (hsound before) op)
      (hdeletes.external_perform (hsound before)) hafter
  · rw [performAll_append] at hgone
    exact (deletes_iff_gone (hsound before)).mpr ⟨hthere, hgone⟩

end Store

end RatingServer
