import RatingServer.Proofs.Store.Indistinct
import RatingServer.Proofs.Store.Profiles

/-!
# Deletions by a condition

A condition names an identifier, unless it is zero, and values. A deletion by a condition
takes exactly the profiles of a unit that match it, each with its record under the key
attribute of the unit, and nothing else, so that no match is found afterwards. A condition
that names an identifier and no value comes to the deletion of that one profile: what may
still tell both apart is whether the store knows the unit, which no operation shows.
-/

namespace RatingServer

/-- A profile that matches a condition: the identifier of the condition is zero or that of
the profile, and the profile has every value of the condition. -/
structure Profile.Matches (p condition : Profile) : Prop where
  /-- The condition names no other identifier. -/
  id_eq : condition.id = 0 ∨ condition.id = p.id
  /-- The profile has a value that agrees with each value of the condition. -/
  value : ∀ name wanted, condition.values.get? name = some wanted →
    ∃ value, p.values.get? name = some value ∧ value.agrees wanted = true

/-- The profiles that satisfy a condition are those that match it. -/
theorem Profile.satisfies_iff {p condition : Profile} :
    p.satisfies condition = true ↔ p.Matches condition := by
  simp only [satisfies, Bool.and_eq_true, Bool.or_eq_true, decide_eq_true_eq, List.all_eq_true,
    Option.any_eq_true, Prod.forall]
  constructor
  · rintro ⟨hid, hvalues⟩
    refine ⟨hid, fun name wanted hwanted => ?_⟩
    exact hvalues name wanted (Table.get?_eq_some_iff.mp hwanted)
  · rintro ⟨hid, hvalues⟩
    refine ⟨hid, fun name wanted hwanted => ?_⟩
    exact hvalues name wanted (Table.get?_eq_some_iff.mpr hwanted)

/-- A condition that names an identifier and no value is matched by the profile of that
identifier. -/
theorem Profile.matches_id_iff {p : Profile} {id : Int32} (hid : id ≠ 0) :
    p.Matches ⟨id, .empty⟩ ↔ p.id = id := by
  constructor
  · intro h
    exact (h.id_eq.resolve_left hid).symm
  · intro h
    exact ⟨.inr h.symm, fun name wanted hwanted => by cases hwanted⟩

/-- The profiles at a place that satisfy a condition. -/
theorem Profile.any_satisfies_iff {there : Option Profile} {condition : Profile} :
    there.any (·.satisfies condition) = true ↔ ∃ p, there = some p ∧ p.Matches condition := by
  rw [Option.any_eq_true]
  exact exists_congr fun p => and_congr_right fun _ => satisfies_iff

/-- At each place, a deletion by a condition that names an identifier and no value does what
the deletion of that identifier does. -/
theorem ProfileWrite.touch_matching_id (written : String) {deleted : Int32} (hne : deleted ≠ 0)
    (unit : String) {id : Int32} {there : Option Profile}
    (hid : ∀ p, there = some p → p.id = id) :
    (deleteMatching written ⟨deleted, .empty⟩).touch unit id there =
      (delete written deleted).touch unit id there := by
  rw [touch, touch]
  refine ite_congr (propext (and_congr_right fun _ => ?_)) (fun _ => rfl) (fun _ => rfl)
  rw [Profile.any_satisfies_iff]
  constructor
  · rintro ⟨p, hp, hmatch⟩
    have hnamed : p.id = deleted := (Profile.matches_id_iff hne).mp hmatch
    exact ⟨(hid p hp).symm.trans hnamed, Option.isSome_of_eq_some hp⟩
  · rintro ⟨rfl, hthere⟩
    obtain ⟨p, hp⟩ := Option.isSome_iff_exists.mp hthere
    exact ⟨p, hp, (Profile.matches_id_iff hne).mpr (hid p hp)⟩

namespace Dataset

/-- Writes that find the same and do the same at each place cannot be told apart. -/
theorem Sound.sameChange_writeProfiles {d : Dataset} (h : d.Sound) {w w' : ProfileWrite}
    (hfinds : w.Finds d.profile? ↔ w'.Finds d.profile?)
    (htouch : ∀ unit id, w.touch unit id (d.profile? unit id) =
      w'.touch unit id (d.profile? unit id)) :
    SameChange (d.writeProfiles w) (d.writeProfiles w') := by
  have hprofiles : (d.writeProfiles w).2.profile? = (d.writeProfiles w').2.profile? := by
    rw [h.profile?_writeProfiles, h.profile?_writeProfiles]
    funext unit id
    rw [ProfileWrite.after, ProfileWrite.after, htouch]
  have hframe := d.writeProfiles_frame w
  have hframe' := d.writeProfiles_frame w'
  refine ⟨?_, ⟨?_, fun unit => ?_, ?_, ?_⟩⟩
  · rw [Bool.eq_iff_iff, h.writeProfiles_found, h.writeProfiles_found, hfinds]
  · rw [hframe, hframe']
  · exact Table.ext_get? fun id => congrFun (congrFun hprofiles unit) id
  · rw [hframe, hframe']
  · refine Table.ext_get? fun i => ?_
    rw [h.external_writeProfiles, h.external_writeProfiles, ProfileWrite.recordTouch,
      ProfileWrite.recordTouch, htouch]

/-- A deletion by a condition that names an identifier and no value cannot be told from the
deletion of that identifier. -/
theorem Sound.sameChange_matching_id {d : Dataset} (h : d.Sound) (unit : String) {id : Int32}
    (hne : id ≠ 0) :
    SameChange (d.deleteMatching unit ⟨id, .empty⟩) (d.deleteProfile unit id) := by
  have hfinds : (ProfileWrite.deleteMatching unit ⟨id, .empty⟩).Finds d.profile? ↔
      (ProfileWrite.delete unit id).Finds d.profile? := by
    simp only [ProfileWrite.Finds, Profile.any_satisfies_iff, Profile.matches_id_iff hne]
    constructor
    · rintro ⟨id', p, hp, rfl⟩
      obtain rfl := h.id_eq hp
      exact Option.isSome_of_eq_some hp
    · intro hthere
      obtain ⟨p, hp⟩ := Option.isSome_iff_exists.mp hthere
      exact ⟨id, p, hp, h.id_eq hp⟩
  exact h.sameChange_writeProfiles hfinds fun unit' id' =>
    ProfileWrite.touch_matching_id unit hne unit' fun p hp => h.id_eq hp

end Dataset

namespace Store

/-- A profile of a unit that matches a condition. -/
def IsMatch (s : Store) (unit : String) (condition p : Profile) : Prop :=
  s.profileMap unit p.id = some p ∧ p.Matches condition

/-- What a query by a condition answers: of the matches the one with the smallest
identifier, or nothing if there is none. -/
def FindsMatch (s : Store) (unit : String) (condition : Profile) : Option Profile → Prop
  | none => ∀ p, ¬s.IsMatch unit condition p
  | some p => s.IsMatch unit condition p ∧ ∀ q, s.IsMatch unit condition q → p.id ≤ q.id

/-- A deletion of the matches of a condition. -/
structure DeletesMatches (s : Store) (unit : String) (condition : Profile)
    (r : Except CallError Bool × Store) : Prop where
  /-- It answers whether there was a match. -/
  answered : ∃ b, r.1 = .ok b ∧ (b = true ↔ ∃ p, s.IsMatch unit condition p)
  /-- The profiles that are left are those that are no matches in the unit. -/
  profile_iff : ∀ unit' id p, r.2.profileMap unit' id = some p ↔
    s.profileMap unit' id = some p ∧ ¬(unit' = unit ∧ s.IsMatch unit condition p)
  /-- The external records that are left are those that are not kept under the key attribute
  for a match. -/
  record_iff : ∀ i e, r.2.data.external.get? i = some e ↔
    s.data.external.get? i = some e ∧
      ¬∃ p, s.IsMatch unit condition p ∧ i = ⟨unit, Dataset.keyName unit, p.id⟩
  /-- All else is as it was. -/
  frame : r.2 = { s with
    data := { s.data with profiles := r.2.data.profiles, external := r.2.data.external } }
  /-- Before, a query by the condition answered the match with the smallest identifier. -/
  found : ∃ answer, perform (.findRow unit condition) s = (.ok answer, s) ∧
    s.FindsMatch unit condition answer
  /-- Afterwards, it answers nothing. -/
  gone : perform (.findRow unit condition) r.2 = (.ok none, r.2)

/-- The answer to a query by a condition. -/
theorem Reachable.findsMatch {s : Store} (h : s.Reachable) (unit : String) (condition : Profile) :
    s.FindsMatch unit condition (s.data.find? unit condition) := by
  have hfirst := h.sound.isFirst_find? unit condition
  cases hfind : s.data.find? unit condition with
  | none =>
    rw [hfind] at hfirst
    rintro p ⟨hp, hmatch⟩
    have hfails := hfirst p hp
    rw [Profile.satisfies_iff.mpr hmatch] at hfails
    cases hfails
  | some p =>
    rw [hfind] at hfirst
    obtain ⟨hp, hmatch, hleast⟩ := hfirst
    exact ⟨⟨hp, Profile.satisfies_iff.mp hmatch⟩,
      fun q hq => hleast q hq.1 (Profile.satisfies_iff.mpr hq.2)⟩

/-- At the place of a profile, a condition is satisfied exactly if the profile is a match. -/
theorem Reachable.any_satisfies_iff {s : Store} (h : s.Reachable) {unit : String}
    {condition p : Profile} {id : Int32} (hp : s.profileMap unit id = some p) :
    (s.profileMap unit id).any (·.satisfies condition) = true ↔ s.IsMatch unit condition p := by
  obtain rfl : p.id = id := h.sound.id_eq hp
  rw [hp, Option.any_some, Profile.satisfies_iff]
  exact (and_iff_right hp).symm

/-- A condition is satisfied at some place exactly if there is a match. -/
theorem Reachable.exists_satisfies_iff {s : Store} (h : s.Reachable) {unit : String}
    {condition : Profile} :
    (∃ id, (s.profileMap unit id).any (·.satisfies condition) = true) ↔
      ∃ p, s.IsMatch unit condition p := by
  constructor
  · rintro ⟨id, hthere⟩
    obtain ⟨p, hp, -⟩ := (Option.any_eq_true _ _).mp hthere
    exact ⟨p, (h.any_satisfies_iff hp).mp hthere⟩
  · rintro ⟨p, hmatch⟩
    exact ⟨p.id, (h.any_satisfies_iff hmatch.1).mpr hmatch⟩

/-- A deletion by a condition leaves the profiles that are no matches. -/
theorem Reachable.profile?_deleteMatching_iff {s : Store} (h : s.Reachable)
    {unit unit' : String} {condition p : Profile} {id : Int32} :
    (s.data.deleteMatching unit condition).2.profile? unit' id = some p ↔
      s.profileMap unit' id = some p ∧ ¬(unit' = unit ∧ s.IsMatch unit condition p) := by
  rw [h.sound.profile?_deleteMatching, Option.ite_none_left_eq_some, and_comm]
  refine and_congr_right fun hp => not_congr (and_congr_right fun hunit => ?_)
  subst hunit
  exact h.any_satisfies_iff hp

/-- A deletion by a condition leaves the records that are not kept under the key attribute for
a match. -/
theorem Reachable.external_deleteMatching_iff {s : Store} (h : s.Reachable) {unit : String}
    {condition : Profile} {i : InternalRecord} {e : ExternalRecord} :
    (s.data.deleteMatching unit condition).2.external.get? i = some e ↔
      s.data.external.get? i = some e ∧
        ¬∃ p, s.IsMatch unit condition p ∧ i = ⟨unit, Dataset.keyName unit, p.id⟩ := by
  have hclears : ∀ x : Option ExternalRecord, Touch.clears.on x = none := fun _ => rfl
  have hafter := h.sound.external_writeProfiles (.deleteMatching unit condition) i
  rw [ProfileWrite.recordTouch, Touch.on_ite, hclears, Dataset.writeProfiles] at hafter
  rw [hafter, Option.ite_none_left_eq_some, and_comm,
    ProfileWrite.touch_deleteMatching_eq_clears]
  refine and_congr_right fun _ => not_congr ?_
  constructor
  · rintro ⟨hi, rfl, hthere⟩
    obtain ⟨p, hp, -⟩ := (Option.any_eq_true _ _).mp hthere
    have hid : p.id = i.value := h.sound.id_eq hp
    exact ⟨p, (h.any_satisfies_iff hp).mp hthere, hid ▸ hi⟩
  · rintro ⟨p, hmatch, rfl⟩
    exact ⟨rfl, rfl, (h.any_satisfies_iff hmatch.1).mpr hmatch⟩

/-- Where there is no match, none is found. -/
theorem Reachable.find?_eq_none {s : Store} (h : s.Reachable) {unit : String}
    {condition : Profile} (hnone : ∀ p, ¬s.IsMatch unit condition p) :
    s.data.find? unit condition = none := by
  have hfinds := h.findsMatch unit condition
  cases hfind : s.data.find? unit condition with
  | none => rfl
  | some p =>
    rw [hfind] at hfinds
    exact absurd hfinds.1 (hnone p)

/-- A deletion by a condition that is carried out on the data of a store deletes the matches
of the condition. -/
theorem Reachable.deletesMatches {s : Store} (h : s.Reachable) (unit : String)
    (condition : Profile) :
    s.DeletesMatches unit condition (s.changed (s.data.deleteMatching unit condition)) := by
  have hwrites := h.writesProfiles (.deleteMatching unit condition)
  have hreachable : (s.changed (s.data.deleteMatching unit condition)).2.Reachable :=
    .performed (.deleteRows unit condition) h
  obtain ⟨b, hanswer, hfound⟩ := hwrites.answered
  have hgone : ∀ p,
      ¬(s.changed (s.data.deleteMatching unit condition)).2.IsMatch unit condition p := by
    rintro p ⟨hp, hmatch⟩
    obtain ⟨hthere, hleft⟩ := h.profile?_deleteMatching_iff.mp hp
    exact hleft ⟨rfl, hthere, hmatch⟩
  exact {
    answered := ⟨b, hanswer, hfound.trans h.exists_satisfies_iff⟩
    profile_iff := fun _ _ _ => h.profile?_deleteMatching_iff
    record_iff := fun _ _ => h.external_deleteMatching_iff
    frame := hwrites.frame
    found := ⟨_, rfl, h.findsMatch unit condition⟩
    gone := by rw [perform, hreachable.find?_eq_none hgone] }

/-- The deletions by conditions of a store. -/
structure DeletesByCondition (s : Store) : Prop where
  /-- A deletion for any unit deletes the matches. -/
  rows : ∀ unit condition, s.DeletesMatches unit condition (perform (.deleteRows unit condition) s)
  /-- A deletion of samples deletes the matches among the samples. -/
  samples : ∀ condition,
    s.DeletesMatches sampleUnit condition (perform (.deleteSamples condition) s)
  /-- A query for a sample is one for the unit of samples. -/
  findSample : ∀ (t : Store) (condition : Profile),
    perform (.findSample condition) t = perform (.findRow sampleUnit condition) t
  /-- For users or items, a condition that names an identifier and no value is answered as a
  deletion of that identifier. -/
  byId : ∀ (side : Side) (id : Int32), id ≠ 0 →
    (perform (.deleteRows side.name ⟨id, .empty⟩) s).1 = (perform (.deleteProfile side id) s).1
  /-- No operation tells the stores apart that both deletions leave, at once or after any
  others. -/
  byId_indistinct : ∀ (side : Side) (id : Int32), id ≠ 0 →
    ∀ (later : List Operation) (op : Operation),
      (perform op ((perform (.deleteRows side.name ⟨id, .empty⟩) s).2.performAll later)).1 =
        (perform op ((perform (.deleteProfile side id) s).2.performAll later)).1

/-- Deletions by conditions delete exactly the matches, and those by an identifier alone
come to the deletion of that identifier. -/
theorem Reachable.deletes_by_condition {s : Store} (h : s.Reachable) : s.DeletesByCondition := by
  have hsame : ∀ (side : Side) (id : Int32), id ≠ 0 →
      SameStep (perform (.deleteRows side.name ⟨id, .empty⟩) s)
        (perform (.deleteProfile side id) s) := fun side id hne =>
    sameStep_changed (h.sound.sameChange_matching_id side.name hne) s s.data
  exact {
    rows := h.deletesMatches
    samples := h.deletesMatches sampleUnit
    findSample := fun _ _ => rfl
    byId := fun side id hne => (hsame side id hne).answer_eq
    byId_indistinct := fun side id hne later op =>
      (((hsame side id hne).store.performAll later).perform op).answer_eq }

/-- Two users with records who like jazz, one who is known by another attribute too, and a
user of whom nothing is known to like. -/
def jazzSample : Store :=
  let likes (id : Int32) (genre : String) : Profile := ⟨id, .ofList [("genre", .string genre)]⟩
  (Store.of .default .empty []).performAll
    [.insertProfile .user (likes 1 "jazz") (some (customerRecord "C-1")),
      .insertProfile .user (likes 2 "jazz") (some (customerRecord "C-2")),
      .insertExternal ⟨"user", "customer", 2⟩ (customerRecord "C-2"),
      .insertProfile .user ⟨3, .ofList [("genre", .missing)]⟩ none,
      .insertProfile .item (likes 1 "jazz") none]

/-- The users who like jazz are deleted by this condition. -/
theorem Reachable.deletes_by_condition_jazz :
    let condition : Profile := ⟨0, .ofList [("genre", .string "jazz")]⟩
    let r := perform (.deleteRows "user" condition) jazzSample
    jazzSample.Reachable ∧ jazzSample.DeletesByCondition ∧ r.1 = .ok true ∧
      r.2.profileMap "user" 2 = none ∧ (r.2.profileMap "user" 3).isSome = true ∧
      r.2.data.external.keys = [⟨"user", "customer", 2⟩] := by
  have h : jazzSample.Reachable := Reachable.performAll (.new _ _ _) _
  refine ⟨h, h.deletes_by_condition, congrArg Except.ok ?_, ?_, ?_, ?_⟩
  · decide +kernel
  · decide +kernel
  · decide +kernel
  · decide +kernel

end Store

end RatingServer
