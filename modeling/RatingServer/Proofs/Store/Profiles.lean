import RatingServer.Proofs.Store.ProfileMaps
import RatingServer.Proofs.Store.Ratings

/-!
# The profiles of a store are a partial map

Profiles of users and of items, sample profiles and the profiles of any unit are written
by operations of their own, yet they are one partial map: whatever operations are mixed,
a profile is there that was inserted last, or put in place of one, and that has not been
deleted since. The external record that is inserted with a profile stays until another is
put in its place or it is deleted, by itself or with the profile.
-/

namespace RatingServer

/-- The write of profiles that an operation asks for. -/
def Operation.profileWrite? : Operation → Option ProfileWrite
  | insertProfile side p _ => some (.insert side.name p)
  | updateProfile side p => some (.update side.name p)
  | deleteProfile side id => some (.delete side.name id)
  | insertSample p => some (.insert Store.sampleUnit p)
  | updateSample p => some (.update Store.sampleUnit p)
  | deleteSamples condition => some (.deleteMatching Store.sampleUnit condition)
  | insertRow unit p => some (.insert unit p)
  | updateRow unit p => some (.update unit p)
  | deleteRows unit condition => some (.deleteMatching unit condition)
  | _ => none

namespace Store

/-- The profiles of a store, as a partial map. -/
def profileMap (s : Store) : ProfileMap := s.data.profile?

/-- What an operation does to the profile of a unit and identifier. -/
def profileTouch (unit : String) (id : Int32) (s : Store) (op : Operation) : Touch Profile :=
  match op.profileWrite? with
  | none => .leaves
  | some w => w.touch unit id (s.profileMap unit id)

/-- What an operation does to an external record: it sets a record that it inserts, alone or
with a profile, or puts in the place of another, and clears one that it deletes, alone or
with the profile to which it belongs. -/
def recordTouch (i : InternalRecord) (s : Store) : Operation → Touch ExternalRecord
  | .insertProfile side p (some e) =>
    if i = Dataset.recordOf side.name p.id then .sets e else .leaves
  | .insertExternal j e => if i = j then .sets e else .leaves
  | .updateExternal j e =>
    if i = j ∧ (s.data.external.get? i).isSome = true then .sets e else .leaves
  | .deleteExternal j => if i = j then .clears else .leaves
  | op =>
    match op.profileWrite? with
    | none => .leaves
    | some w => w.recordTouch s.profileMap i

end Store

namespace Dataset

/-- An update of a record changes nothing but records. -/
theorem updateExternal_frame (d : Dataset) (j : InternalRecord) (e : ExternalRecord) :
    (d.updateExternal j e).2 = { d with external := (d.updateExternal j e).2.external } := by
  rw [updateExternal]
  split
  · rfl
  · rfl

/-- A record after the update of one. -/
theorem get?_updateExternal (d : Dataset) (j : InternalRecord) (e : ExternalRecord)
    (i : InternalRecord) :
    (d.updateExternal j e).2.external.get? i =
      if i = j ∧ (d.external.get? i).isSome = true then some e else d.external.get? i := by
  rw [updateExternal, Table.contains]
  by_cases h : (d.external.get? j).isSome = true
  · rw [if_pos h]
    refine (Table.get?_insert d.external j i e).trans ?_
    by_cases hi : i = j
    · rw [if_pos hi, if_pos ⟨hi, hi ▸ h⟩]
    · rw [if_neg hi, if_neg fun hand => hi hand.1]
  · rw [if_neg h, if_neg]
    rintro ⟨rfl, hthere⟩
    exact h hthere

/-- Profiles depend on nothing else. -/
theorem profile?_congr {d d' : Dataset} (h : d'.profiles = d.profiles) :
    d'.profile? = d.profile? := by
  funext unit id
  rw [profile?, profile?, Dataset.unit, Dataset.unit, h]

/-- An update of a nominal value changes nothing but nominal lists. -/
theorem updateNominal_frame (d : Dataset) (key : NominalKey) (n : Nominal) :
    (d.updateNominal key n).2 = { d with nominals := (d.updateNominal key n).2.nominals } := by
  rw [updateNominal]
  split
  · rfl
  · split
    · rfl
    · rfl

end Dataset

namespace Store

/-- What an operation does to profiles and external records. -/
inductive Changes (s : Store) (op : Operation) : Prop where
  /-- It writes profiles. -/
  | profiles (w : ProfileWrite) (write : op.profileWrite? = some w)
    (data : (perform op s).2.data = (s.data.writeProfiles w).2)
    (records : ∀ i, s.recordTouch i op = w.recordTouch s.profileMap i)
  /-- It inserts a profile and its record. -/
  | profileWithRecord (side : Side) (p : Profile) (e : ExternalRecord)
    (operation : op = .insertProfile side p (some e))
  /-- It inserts a record. -/
  | insertedRecord (i : InternalRecord) (e : ExternalRecord) (operation : op = .insertExternal i e)
  /-- It puts a record in the place of another. -/
  | updatedRecord (i : InternalRecord) (e : ExternalRecord) (operation : op = .updateExternal i e)
  /-- It deletes a record. -/
  | deletedRecord (i : InternalRecord) (operation : op = .deleteExternal i)
  /-- It changes neither. -/
  | neither (write : op.profileWrite? = none) (records : ∀ i, s.recordTouch i op = .leaves)
    (profiles : (perform op s).2.data.profiles = s.data.profiles)
    (external : (perform op s).2.data.external = s.data.external)

/-- Every operation does one of these. -/
theorem changes (s : Store) (op : Operation) : s.Changes op := by
  cases op with
  | insertProfile side p r =>
    cases r with
    | none => exact .profiles _ rfl rfl fun _ => rfl
    | some e => exact .profileWithRecord side p e rfl
  | updateProfile side p => exact .profiles _ rfl rfl fun _ => rfl
  | deleteProfile side id => exact .profiles _ rfl rfl fun _ => rfl
  | insertSample p => exact .profiles _ rfl rfl fun _ => rfl
  | updateSample p => exact .profiles _ rfl rfl fun _ => rfl
  | deleteSamples c => exact .profiles _ rfl rfl fun _ => rfl
  | insertRow unit p => exact .profiles _ rfl rfl fun _ => rfl
  | updateRow unit p => exact .profiles _ rfl rfl fun _ => rfl
  | deleteRows unit c => exact .profiles _ rfl rfl fun _ => rfl
  | insertExternal i e => exact .insertedRecord i e rfl
  | updateExternal i e => exact .updatedRecord i e rfl
  | deleteExternal i => exact .deletedRecord i rfl
  | deleteRatingsOf side id =>
    have hframe := s.data.deleteVector_frame side id
    exact .neither rfl (fun _ => rfl) (congrArg Dataset.profiles hframe :)
      (congrArg Dataset.external hframe :)
  | updateNominal unit attr n =>
    have hframe := s.data.updateNominal_frame ⟨unit, attr⟩ n
    exact .neither rfl (fun _ => rfl) (congrArg Dataset.profiles hframe :)
      (congrArg Dataset.external hframe :)
  | _ => exact .neither rfl (fun _ => rfl) rfl rfl

/-- The profiles after an operation. -/
theorem profileMap_perform {s : Store} (h : s.data.Sound) (op : Operation) :
    (perform op s).2.profileMap =
      match op.profileWrite? with
      | none => s.profileMap
      | some w => w.after s.profileMap := by
  cases s.changes op with
  | profiles w write data =>
    rw [write, profileMap, data]
    exact h.profile?_writeProfiles w
  | profileWithRecord side p e operation =>
    subst operation
    exact h.profile?_writeProfiles (.insert side.name p)
  | updatedRecord i e operation =>
    subst operation
    have hframe := s.data.updateExternal_frame i e
    exact (congrArg Dataset.profile? hframe :)
  | insertedRecord i e operation | deletedRecord i operation =>
    subst operation
    rfl
  | neither write _ profiles =>
    rw [write]
    exact Dataset.profile?_congr profiles

/-- The profile at one place after an operation. -/
theorem profile_perform {s : Store} (h : s.data.Sound) (unit : String) (id : Int32)
    (op : Operation) :
    (perform op s).2.profileMap unit id =
      (profileTouch unit id s op).on (s.profileMap unit id) := by
  rw [profileMap_perform h, profileTouch]
  cases op.profileWrite? with
  | none => rfl
  | some w => rfl

/-- An external record after an operation. -/
theorem external_perform {s : Store} (h : s.data.Sound) (op : Operation) (i : InternalRecord) :
    (perform op s).2.data.external.get? i =
      (s.recordTouch i op).on (s.data.external.get? i) := by
  cases s.changes op with
  | profiles w _ data records =>
    rw [records, data]
    exact h.external_writeProfiles w i
  | profileWithRecord side p e operation =>
    subst operation
    rw [recordTouch, Touch.on_ite]
    exact Table.get?_insert s.data.external (Dataset.recordOf side.name p.id) i e
  | insertedRecord j e operation =>
    subst operation
    rw [recordTouch, Touch.on_ite]
    exact Table.get?_insert s.data.external j i e
  | updatedRecord j e operation =>
    subst operation
    rw [recordTouch, Touch.on_ite]
    exact s.data.get?_updateExternal j e i
  | deletedRecord j operation =>
    subst operation
    rw [recordTouch, Touch.on_ite]
    exact Table.get?_erase s.data.external j i
  | neither _ records _ external => rw [records, external, Touch.on]

/-- A write of profiles to a store: it answers whether it found anything, it leaves the
profiles of a map, and nothing but profiles and their records changes in the store. -/
structure WritesProfiles (s : Store) (r : Except CallError Bool × Store) (w : ProfileWrite) :
    Prop where
  /-- It answers, and says whether it found anything. -/
  answered : ∃ b, r.1 = .ok b ∧ (b = true ↔ w.Finds s.profileMap)
  /-- The profiles are those of the map after the write. -/
  profiles : r.2.profileMap = w.after s.profileMap
  /-- If it found nothing, the map is as it was. -/
  idle : ¬w.Finds s.profileMap → r.2.profileMap = s.profileMap
  /-- The profiles of all other units are as they were. -/
  others : ∀ unit, unit ≠ w.unit → r.2.profileMap unit = s.profileMap unit
  /-- All else is as it was. -/
  frame : r.2 = { s with
    data := { s.data with profiles := r.2.data.profiles, external := r.2.data.external } }

/-- What is carried out on the data of a store is a write of profiles to the store. -/
theorem Reachable.writesProfiles {s : Store} (h : s.Reachable) (w : ProfileWrite) :
    s.WritesProfiles (s.changed (s.data.writeProfiles w)) w := by
  have hafter : (s.changed (s.data.writeProfiles w)).2.profileMap = w.after s.profileMap :=
    h.sound.profile?_writeProfiles w
  have hfound := h.sound.writeProfiles_found w
  refine ⟨⟨_, rfl, hfound⟩, hafter, fun hidle => ?_, fun unit hunit => ?_, ?_⟩
  · rw [hafter]
    funext unit id
    rw [ProfileWrite.after, ProfileWrite.touch_of_not_finds hidle, Touch.on]
  · rw [hafter]
    funext id
    rw [ProfileWrite.after, ProfileWrite.touch_of_ne hunit, Touch.on]
  · have hframe := s.data.writeProfiles_frame w
    exact congrArg (fun data => { s with data }) hframe

/-- The operations on profiles, told by the partial map of the profiles of a store. -/
structure RefinesProfileMap (s : Store) : Prop where
  /-- The profile at a place has its identifier. -/
  id_eq : ∀ unit id p, s.profileMap unit id = some p → p.id = id
  /-- An insertion for a user or item, with an external record or without. -/
  insertOf : ∀ side p r,
    s.WritesProfiles (perform (.insertProfile side p r) s) (.insert side.name p)
  /-- An insertion of a sample. -/
  insertSample : ∀ p, s.WritesProfiles (perform (.insertSample p) s) (.insert sampleUnit p)
  /-- An insertion for any unit. -/
  insertRow : ∀ unit p, s.WritesProfiles (perform (.insertRow unit p) s) (.insert unit p)
  /-- An update for a user or item. -/
  updateOf : ∀ side p, s.WritesProfiles (perform (.updateProfile side p) s) (.update side.name p)
  /-- An update of a sample. -/
  updateSample : ∀ p, s.WritesProfiles (perform (.updateSample p) s) (.update sampleUnit p)
  /-- An update for any unit. -/
  updateRow : ∀ unit p, s.WritesProfiles (perform (.updateRow unit p) s) (.update unit p)
  /-- A deletion for a user or item. -/
  deleteOf : ∀ side id, s.WritesProfiles (perform (.deleteProfile side id) s) (.delete side.name id)
  /-- A deletion of samples. -/
  deleteSamples : ∀ c,
    s.WritesProfiles (perform (.deleteSamples c) s) (.deleteMatching sampleUnit c)
  /-- A deletion for any unit. -/
  deleteRows : ∀ unit c, s.WritesProfiles (perform (.deleteRows unit c) s) (.deleteMatching unit c)
  /-- No other operation changes a profile. -/
  unwritten : ∀ op : Operation, op.profileWrite? = none →
    (perform op s).2.profileMap = s.profileMap
  /-- A query for one user or item answers its profile. -/
  profileOf : ∀ side id, perform (.profileOf side id) s = (.ok (s.profileMap side.name id), s)
  /-- A query for all users or items lists their profiles in ascending order. -/
  profilesOf : ∀ side, ∃ rows, s.Lists (perform (.profiles side) s) rows ∧
    (rows.Pairwise fun p q => p.id < q.id) ∧
    ∀ p, p ∈ rows ↔ s.profileMap side.name p.id = some p
  /-- A query for a sample answers the first that satisfies the condition. -/
  findSample : ∀ c, ∃ answer, perform (.findSample c) s = (.ok answer, s) ∧
    s.profileMap.IsFirst sampleUnit c answer
  /-- A query for a profile of any unit answers the first that satisfies the condition. -/
  findRow : ∀ unit c, ∃ answer, perform (.findRow unit c) s = (.ok answer, s) ∧
    s.profileMap.IsFirst unit c answer
  /-- An insertion or update for the unit of users or of items is one for a user or item,
  without an external record. -/
  rowOfSide : ∀ (side : Side) (p : Profile),
    (perform (.insertRow side.name p) s).2 = (perform (.insertProfile side p none) s).2 ∧
      (perform (.updateRow side.name p) s).2 = (perform (.updateProfile side p) s).2
  /-- An insertion or update for the unit of samples is one of a sample. -/
  rowOfSample : ∀ p : Profile,
    (perform (.insertRow sampleUnit p) s).2 = (perform (.insertSample p) s).2 ∧
      (perform (.updateRow sampleUnit p) s).2 = (perform (.updateSample p) s).2

/-- The operations on profiles are those on the partial map. -/
theorem Reachable.refinesProfileMap {s : Store} (h : s.Reachable) : s.RefinesProfileMap where
  id_eq _ _ _ hp := h.sound.id_eq hp
  insertOf side p r := by
    have hinsert := h.writesProfiles (.insert side.name p)
    cases r with
    | none => exact hinsert
    | some e => exact ⟨hinsert.answered, hinsert.profiles, hinsert.idle, hinsert.others, rfl⟩
  insertSample p := h.writesProfiles (.insert sampleUnit p)
  insertRow unit p := h.writesProfiles (.insert unit p)
  updateOf side p := h.writesProfiles (.update side.name p)
  updateSample p := h.writesProfiles (.update sampleUnit p)
  updateRow unit p := h.writesProfiles (.update unit p)
  deleteOf side id := h.writesProfiles (.delete side.name id)
  deleteSamples c := h.writesProfiles (.deleteMatching sampleUnit c)
  deleteRows unit c := h.writesProfiles (.deleteMatching unit c)
  unwritten op hop := by rw [profileMap_perform h.sound, hop]
  profileOf _ _ := rfl
  profilesOf side :=
    ⟨_, s.lists_cursor _, h.sound.pairwise_rows side.name, fun _ => h.sound.mem_rows_iff⟩
  findSample c := ⟨_, rfl, h.sound.isFirst_find? sampleUnit c⟩
  findRow unit c := ⟨_, rfl, h.sound.isFirst_find? unit c⟩
  rowOfSide _ _ := ⟨rfl, rfl⟩
  rowOfSample _ := ⟨rfl, rfl⟩

/-- Each of some operations leaves the profile of a unit and identifier. -/
def ProfileUntouched (s : Store) (unit : String) (id : Int32) (ops : List Operation) : Prop :=
  Touch.Untouched (fun s op => (perform op s).2) (profileTouch unit id) s ops

/-- Each of some operations leaves an external record. -/
def RecordUntouched (s : Store) (i : InternalRecord) (ops : List Operation) : Prop :=
  Touch.Untouched (fun s op => (perform op s).2) (recordTouch i) s ops

instance (s : Store) (i : InternalRecord) (ops : List Operation) :
    Decidable (s.RecordUntouched i ops) :=
  inferInstanceAs (Decidable (Touch.Untouched _ _ _ _))

/-- What is there after operations, as their history tells. -/
structure RemembersProfiles (s : Store) (ops : List Operation) : Prop where
  /-- The operations on profiles are those on the partial map. -/
  refines : (s.performAll ops).RefinesProfileMap
  /-- A profile is there if it was there before and has not been touched, or an operation
  has set it and no later one has touched it. -/
  profile_iff : ∀ unit id p, (s.performAll ops).profileMap unit id = some p ↔
    (s.profileMap unit id = some p ∧ s.ProfileUntouched unit id ops) ∨
      ∃ before op after, ops = before ++ op :: after ∧
        profileTouch unit id (s.performAll before) op = .sets p ∧
        (perform op (s.performAll before)).2.ProfileUntouched unit id after
  /-- An external record that is inserted with a profile is answered as long as no
  operation touches it. -/
  record_kept : ∀ side p e before after, ops = before ++ .insertProfile side p (some e) :: after →
    (perform (.insertProfile side p (some e)) (s.performAll before)).2.RecordUntouched
      (Dataset.recordOf side.name p.id) after →
    perform (.externalOf side p.id) (s.performAll ops) = (.ok (some e), s.performAll ops)

/-- Whatever operations are mixed, the profiles are a partial map from units and
identifiers to the profiles that were set last, and the record that is inserted with a
profile is there until it is touched. -/
theorem Reachable.remembers_profiles {s : Store} (h : s.Reachable) (ops : List Operation) :
    s.RemembersProfiles ops where
  refines := (h.performAll ops).refinesProfileMap
  profile_iff unit id p :=
    Touch.run_eq_some_iff (fun s => s.profileMap unit id) (fun _ op hs => .performed op hs)
      (fun _ op hs => profile_perform hs.sound unit id op) h ops p
  record_kept side p e before after hsplit huntouched := by
    have hset : recordTouch (Dataset.recordOf side.name p.id) (s.performAll before)
        (.insertProfile side p (some e)) = .sets e := by rw [recordTouch, if_pos rfl]
    have hkept : (s.performAll ops).data.external.get? (Dataset.recordOf side.name p.id) =
        some e :=
      (Touch.run_eq_some_iff (fun s => s.data.external.get? (Dataset.recordOf side.name p.id))
        (fun _ op hs => .performed op hs)
        (fun _ op hs => external_perform hs.sound op (Dataset.recordOf side.name p.id))
        h ops e).mpr (.inr ⟨before, _, after, hsplit, hset, huntouched⟩)
    rw [perform, hkept]

/-- A record of a customer. -/
def customerRecord (value : String) : ExternalRecord := ⟨"user", "customer", value⟩

/-- A user is inserted with a record, among profiles of other units. One of these is
updated that is not there, a sample is deleted by what it looks like, and the user is
updated. -/
def mixedSample : List Operation :=
  let looks (id : Int32) (color : String) : Profile := ⟨id, .ofList [("color", .string color)]⟩
  [.insertProfile .user (looks 1 "red") (some (customerRecord "C-5")),
    .insertProfile .item (looks 1 "red") none,
    .insertSample (looks 1 "red"),
    .updateRow "shop" (looks 1 "red"),
    .insertRow "user" (looks 2 "red"),
    .deleteRows "sample" (looks 0 "red"),
    .updateRow "user" (looks 1 "blue")]

/-- Profiles of several units are remembered after mixed operations, and so is the record
of one of them. -/
theorem Reachable.remembers_profiles_mixed :
    let s := Store.of .default .empty []
    s.Reachable ∧ s.RemembersProfiles mixedSample ∧
      (s.performAll mixedSample).profileMap "sample" 1 = none ∧
      (s.performAll mixedSample).profileMap "shop" 1 = none ∧
      perform (.externalOf .user 1) (s.performAll mixedSample) =
        (.ok (some (customerRecord "C-5")), s.performAll mixedSample) := by
  have h : (Store.of .default .empty []).Reachable := .new _ _ _
  have hremembers := h.remembers_profiles mixedSample
  have hrecord := hremembers.record_kept .user _ _ [] _ rfl (by decide +kernel)
  exact ⟨h, hremembers, by decide +kernel, by decide +kernel, hrecord⟩

end Store

end RatingServer
