import RatingServer.Proofs.Store.Reachable
import RatingServer.Proofs.Table.Histories

/-!
# Profiles as a partial map

The profiles of all units are seen as one partial map from units and identifiers to
profiles. A write is told by what it does at each place, which depends on nothing but the
profile there: it sets the profile, clears it or leaves it. An external record under the
key attribute of a unit goes with the profile whose record it is.
-/

namespace RatingServer

/-- A partial map from units and identifiers to profiles. -/
abbrev ProfileMap := String → Int32 → Option Profile

/-- The first profile of a unit that satisfies a condition, or nothing if none does. -/
def ProfileMap.IsFirst (m : ProfileMap) (unit : String) (condition : Profile) :
    Option Profile → Prop
  | none => ∀ p, m unit p.id = some p → p.satisfies condition = false
  | some p => m unit p.id = some p ∧ p.satisfies condition = true ∧
      ∀ q, m unit q.id = some q → q.satisfies condition = true → p.id ≤ q.id

/-- A write of profiles. -/
inductive ProfileWrite where
  /-- Inserts a profile, over one that is there. -/
  | insert (unit : String) (p : Profile)
  /-- Replaces a profile that is there. -/
  | update (unit : String) (p : Profile)
  /-- Deletes the profile of an identifier. -/
  | delete (unit : String) (id : Int32)
  /-- Deletes the profiles that satisfy a condition. -/
  | deleteMatching (unit : String) (condition : Profile)

namespace ProfileWrite

/-- The unit whose profiles are written. -/
def unit : ProfileWrite → String
  | insert unit _ | update unit _ | delete unit _ | deleteMatching unit _ => unit

/-- What a write does at a place, given the profile there. -/
def touch (w : ProfileWrite) (unit : String) (id : Int32) (there : Option Profile) :
    Touch Profile :=
  match w with
  | insert written p => if unit = written ∧ id = p.id then .sets p else .leaves
  | update written p =>
    if unit = written ∧ id = p.id ∧ there.isSome = true then .sets p else .leaves
  | delete written deleted =>
    if unit = written ∧ id = deleted ∧ there.isSome = true then .clears else .leaves
  | deleteMatching written condition =>
    if unit = written ∧ there.any (·.satisfies condition) = true then .clears else .leaves

/-- What a write leaves of a map. -/
def after (w : ProfileWrite) (m : ProfileMap) : ProfileMap := fun unit id =>
  (w.touch unit id (m unit id)).on (m unit id)

/-- A write that finds something to change. -/
def Finds (m : ProfileMap) : ProfileWrite → Prop
  | insert _ _ => True
  | update unit p => (m unit p.id).isSome = true
  | delete unit id => (m unit id).isSome = true
  | deleteMatching unit condition => ∃ id, (m unit id).any (·.satisfies condition) = true

/-- A write leaves the places of all other units. -/
theorem touch_of_ne {w : ProfileWrite} {unit : String} (h : unit ≠ w.unit) (id : Int32)
    (there : Option Profile) : w.touch unit id there = .leaves := by
  cases w with
  | insert written p => exact if_neg fun hw => h hw.1
  | update written p => exact if_neg fun hw => h hw.1
  | delete written deleted => exact if_neg fun hw => h hw.1
  | deleteMatching written condition => exact if_neg fun hw => h hw.1

/-- A write that finds nothing leaves every place. -/
theorem touch_of_not_finds {w : ProfileWrite} {m : ProfileMap} (h : ¬w.Finds m) (unit : String)
    (id : Int32) : w.touch unit id (m unit id) = .leaves := by
  cases w with
  | insert written p => exact absurd trivial h
  | update written p =>
    refine if_neg ?_
    rintro ⟨rfl, rfl, hthere⟩
    exact h hthere
  | delete written deleted =>
    refine if_neg ?_
    rintro ⟨rfl, rfl, hthere⟩
    exact h hthere
  | deleteMatching written condition =>
    refine if_neg ?_
    rintro ⟨rfl, hthere⟩
    exact h ⟨id, hthere⟩

/-- An insertion clears no place. -/
theorem touch_insert_ne_clears {written unit : String} {p : Profile} {id : Int32}
    (there : Option Profile) : (insert written p).touch unit id there ≠ .clears := by
  simp only [touch]
  split <;> exact nofun

/-- An update clears no place. -/
theorem touch_update_ne_clears {written unit : String} {p : Profile} {id : Int32}
    (there : Option Profile) : (update written p).touch unit id there ≠ .clears := by
  simp only [touch]
  split <;> exact nofun

/-- A deletion clears the place of its profile. -/
theorem touch_delete_eq_clears {written unit : String} {deleted id : Int32}
    {there : Option Profile} :
    (delete written deleted).touch unit id there = .clears ↔
      unit = written ∧ id = deleted ∧ there.isSome = true :=
  Touch.ite_eq_clears_iff

/-- Deletions by a condition clear the places of the profiles that satisfy it. -/
theorem touch_deleteMatching_eq_clears {written unit : String} {condition : Profile} {id : Int32}
    {there : Option Profile} :
    (deleteMatching written condition).touch unit id there = .clears ↔
      unit = written ∧ there.any (·.satisfies condition) = true :=
  Touch.ite_eq_clears_iff

/-- What a write does to an external record: it clears the one under the key attribute of
a profile that it deletes. -/
def recordTouch (w : ProfileWrite) (m : ProfileMap) (i : InternalRecord) : Touch ExternalRecord :=
  if i = Dataset.recordOf i.unit i.value ∧ w.touch i.unit i.value (m i.unit i.value) = .clears then
    .clears
  else .leaves

/-- A write that deletes no profile leaves all records. -/
theorem recordTouch_of_ne {w : ProfileWrite} {m : ProfileMap} {i : InternalRecord}
    (h : w.touch i.unit i.value (m i.unit i.value) ≠ .clears) : w.recordTouch m i = .leaves :=
  if_neg fun hand => h hand.2

end ProfileWrite

namespace Dataset

/-- The profile at a place after the profiles of a unit are set. -/
theorem profile?_setUnit (d : Dataset) (written : String) (t : Table Int32 Profile) (unit : String)
    (id : Int32) :
    (d.setUnit written t).profile? unit id =
      if unit = written then t.get? id else d.profile? unit id := by
  rw [profile?, Dataset.unit, setUnit, Table.get?_insert]
  by_cases h : unit = written
  · rw [if_pos h, if_pos h, Option.getD_some]
  · rw [if_neg h, if_neg h, profile?, Dataset.unit]

/-- To set the profiles of a unit to what they are changes nothing. -/
theorem profile?_setUnit_self (d : Dataset) (unit : String) :
    (d.setUnit unit (d.unit unit)).profile? = d.profile? := by
  funext unit' id
  rw [profile?_setUnit]
  by_cases h : unit' = unit
  · rw [if_pos h, h, profile?]
  · rw [if_neg h]

/-- The profile at a place after an insertion. -/
theorem profile?_insertProfile (d : Dataset) (written : String) (p : Profile) (unit : String)
    (id : Int32) :
    (d.insertProfile written p).profile? unit id =
      if unit = written ∧ id = p.id then some p else d.profile? unit id := by
  rw [insertProfile, profile?_setUnit, Table.get?_insert]
  by_cases hunit : unit = written
  · subst hunit
    by_cases hid : id = p.id
    · rw [if_pos rfl, if_pos hid, if_pos ⟨rfl, hid⟩]
    · rw [if_pos rfl, if_neg hid, if_neg fun h => hid h.2, profile?]
  · rw [if_neg hunit, if_neg fun h => hunit h.1]

/-- The profile at a place after an update. -/
theorem profile?_updateProfile (d : Dataset) (written : String) (p : Profile) (unit : String)
    (id : Int32) :
    (d.updateProfile written p).2.profile? unit id =
      if unit = written ∧ id = p.id ∧ (d.profile? unit id).isSome = true then some p
      else d.profile? unit id := by
  have hthere : (d.unit written).contains p.id = (d.profile? written p.id).isSome := rfl
  rw [updateProfile, hthere]
  by_cases h : (d.profile? written p.id).isSome = true
  · rw [if_pos h]
    refine (d.profile?_insertProfile written p unit id).trans ?_
    by_cases hplace : unit = written ∧ id = p.id
    · obtain ⟨rfl, rfl⟩ := hplace
      rw [if_pos ⟨rfl, rfl⟩, if_pos ⟨rfl, rfl, h⟩]
    · rw [if_neg hplace, if_neg fun hand => hplace ⟨hand.1, hand.2.1⟩]
  · rw [if_neg h, d.profile?_setUnit_self written, if_neg]
    rintro ⟨rfl, rfl, hsome⟩
    exact h hsome

/-- An update answers whether there was a profile. -/
theorem updateProfile_found (d : Dataset) (unit : String) (p : Profile) :
    (d.updateProfile unit p).1 = (d.profile? unit p.id).isSome := by
  rw [updateProfile, profile?, ← Table.contains]
  cases (d.unit unit).contains p.id <;> rfl

/-- The profile at a place after a deletion. -/
theorem profile?_deleteProfile (d : Dataset) (written : String) (deleted : Int32) (unit : String)
    (id : Int32) :
    (d.deleteProfile written deleted).2.profile? unit id =
      if unit = written ∧ id = deleted then none else d.profile? unit id := by
  rw [deleteProfile]
  by_cases h : (d.unit written).contains deleted = true
  · rw [if_pos h]
    refine (d.profile?_setUnit written ((d.unit written).erase deleted) unit id).trans ?_
    rw [Table.get?_erase]
    by_cases hunit : unit = written
    · subst hunit
      by_cases hid : id = deleted
      · rw [if_pos rfl, if_pos hid, if_pos ⟨rfl, hid⟩]
      · rw [if_pos rfl, if_neg hid, if_neg fun h => hid h.2, profile?]
    · rw [if_neg hunit, if_neg fun h => hunit h.1]
  · rw [if_neg h, d.profile?_setUnit_self written]
    by_cases hplace : unit = written ∧ id = deleted
    · obtain ⟨rfl, rfl⟩ := hplace
      rw [if_pos ⟨rfl, rfl⟩]
      exact Option.not_isSome_iff_eq_none.mp h
    · rw [if_neg hplace]

/-- A deletion answers whether there was a profile. -/
theorem deleteProfile_found (d : Dataset) (unit : String) (id : Int32) :
    (d.deleteProfile unit id).1 = (d.profile? unit id).isSome := by
  rw [deleteProfile, profile?, ← Table.contains]
  cases (d.unit unit).contains id <;> rfl

/-- A deletion of a profile that is there deletes its record. -/
theorem external_deleteProfile (d : Dataset) (unit : String) (id : Int32) (i : InternalRecord) :
    (d.deleteProfile unit id).2.external.get? i =
      if i = recordOf unit id ∧ (d.profile? unit id).isSome = true then none
      else d.external.get? i := by
  rw [deleteProfile, profile?, ← Table.contains]
  by_cases h : (d.unit unit).contains id = true
  · rw [if_pos h]
    refine (Table.get?_erase d.external (recordOf unit id) i).trans ?_
    by_cases hi : i = recordOf unit id
    · rw [if_pos hi, if_pos ⟨hi, h⟩]
    · rw [if_neg hi, if_neg fun hand => hi hand.1]
  · rw [if_neg h, if_neg fun hand => h hand.2]
    rfl

/-- Deletes a profile after some others, and tells whether any of them was there. -/
def deleteAlso (unit : String) (done : Bool × Dataset) (id : Int32) : Bool × Dataset :=
  ((done.2.deleteProfile unit id).1 || done.1, (done.2.deleteProfile unit id).2)

/-- The identifiers of the profiles that satisfy a condition. -/
def matching (d : Dataset) (unit : String) (condition : Profile) : List Int32 :=
  ((d.rows unit).filter (·.satisfies condition)).map (·.id)

/-- The profiles that satisfy a condition are deleted one after another. -/
theorem deleteMatching_eq (d : Dataset) (unit : String) (condition : Profile) :
    d.deleteMatching unit condition =
      (d.matching unit condition).foldl (deleteAlso unit) (false, d) := rfl

/-- The profile at a place after deletions. -/
theorem profile?_foldl_deleteAlso (written : String) (ids : List Int32) (done : Bool × Dataset)
    (unit : String) (id : Int32) :
    (ids.foldl (deleteAlso written) done).2.profile? unit id =
      if unit = written ∧ id ∈ ids then none else done.2.profile? unit id := by
  induction ids generalizing done with
  | nil => simp
  | cons deleted ids ih =>
    rw [List.foldl_cons, ih, deleteAlso, profile?_deleteProfile]
    by_cases hunit : unit = written
    · by_cases hmem : id ∈ ids
      · simp [hunit, hmem]
      · simp [hunit, hmem]
    · simp [hunit]

/-- Deletions answer whether one of the profiles was there. -/
theorem foldl_deleteAlso_found (unit : String) (ids : List Int32) (done : Bool × Dataset) :
    (ids.foldl (deleteAlso unit) done).1 = true ↔
      done.1 = true ∨ ∃ id ∈ ids, (done.2.profile? unit id).isSome = true := by
  induction ids generalizing done with
  | nil => simp
  | cons deleted ids ih =>
    rw [List.foldl_cons, ih]
    have hfirst : (deleteAlso unit done deleted).1 = true ↔
        (done.2.profile? unit deleted).isSome = true ∨ done.1 = true := by
      rw [deleteAlso, Bool.or_eq_true, deleteProfile_found]
    have hrest : ∀ id, ((deleteAlso unit done deleted).2.profile? unit id).isSome = true ↔
        id ≠ deleted ∧ (done.2.profile? unit id).isSome = true := fun id => by
      rw [deleteAlso, profile?_deleteProfile]
      by_cases hid : id = deleted
      · simp [hid]
      · simp [hid]
    rw [hfirst]
    simp only [hrest]
    constructor
    · rintro ((hthere | hdone) | ⟨id, hid, -, hthere⟩)
      · exact .inr ⟨deleted, List.mem_cons_self, hthere⟩
      · exact .inl hdone
      · exact .inr ⟨id, List.mem_cons_of_mem _ hid, hthere⟩
    · rintro (hdone | ⟨id, hid, hthere⟩)
      · exact .inl (.inr hdone)
      · by_cases heq : id = deleted
        · exact .inl (.inl (heq ▸ hthere))
        · exact .inr ⟨id, List.mem_of_ne_of_mem heq hid, heq, hthere⟩

/-- An external record after deletions: it goes with the profile whose record it is. -/
theorem external_foldl_deleteAlso (unit : String) (ids : List Int32) (done : Bool × Dataset)
    (i : InternalRecord) :
    (ids.foldl (deleteAlso unit) done).2.external.get? i =
      if i = recordOf unit i.value ∧ i.value ∈ ids ∧
          (done.2.profile? unit i.value).isSome = true then none
      else done.2.external.get? i := by
  induction ids generalizing done with
  | nil => simp
  | cons deleted ids ih =>
    have hrecord : i = recordOf unit deleted ↔ i = recordOf unit i.value ∧ i.value = deleted :=
      ⟨fun h => ⟨h ▸ rfl, h ▸ rfl⟩, fun h => h.2 ▸ h.1⟩
    rw [List.foldl_cons, ih, deleteAlso, external_deleteProfile, profile?_deleteProfile]
    simp only [hrecord]
    by_cases hi : i = recordOf unit i.value
    · by_cases hid : i.value = deleted
      · simp [hid]
      · simp [eq_true hi, hid]
    · simp [hi]

/-- The rows of a unit are its profiles. -/
theorem Sound.mem_rows_iff {d : Dataset} (h : d.Sound) {unit : String} {p : Profile} :
    p ∈ d.rows unit ↔ d.profile? unit p.id = some p := by
  rw [Dataset.rows, Table.values, List.mem_map]
  constructor
  · rintro ⟨⟨id, q⟩, hentry, rfl⟩
    have hget := Table.get?_eq_some_iff.mpr hentry
    rw [h.unit unit id q hget]
    exact hget
  · exact fun hget => ⟨(p.id, p), Table.get?_eq_some_iff.mp hget, rfl⟩

/-- The profile at a place has its identifier. -/
theorem Sound.id_eq {d : Dataset} (h : d.Sound) {unit : String} {id : Int32} {p : Profile}
    (hp : d.profile? unit id = some p) : p.id = id := h.unit unit id p hp

/-- The rows of a unit stand in the order of their identifiers. -/
theorem Sound.pairwise_rows {d : Dataset} (h : d.Sound) (unit : String) :
    (d.rows unit).Pairwise fun p q => p.id < q.id := by
  have hkeys := (d.unit unit).pairwise_keys
  rw [← h.map_id_rows] at hkeys
  exact List.pairwise_map.mp hkeys

/-- The profile that is found by a condition is the first that satisfies it. -/
theorem Sound.isFirst_find? {d : Dataset} (h : d.Sound) (unit : String) (condition : Profile) :
    ProfileMap.IsFirst d.profile? unit condition (d.find? unit condition) := by
  cases hfind : d.find? unit condition with
  | none =>
    intro p hp
    have hnone := List.find?_eq_none.mp hfind p (h.mem_rows_iff.mpr hp)
    exact Bool.not_eq_true _ ▸ hnone
  | some p =>
    have hasymm : ∀ a b : Profile, a.id < b.id → ¬b.id < a.id := fun a b hab hba =>
      Int32.lt_asymm hab hba
    obtain ⟨hrow, hmatch, hfirst⟩ :=
      (Table.find?_eq_some_iff_first hasymm (h.pairwise_rows unit)).mp hfind
    refine ⟨h.mem_rows_iff.mp hrow, hmatch, fun q hq hmatch' => ?_⟩
    rcases hfirst q (h.mem_rows_iff.mpr hq) hmatch' with rfl | hlt
    · exact Int32.le_refl _
    · exact Int32.le_of_lt hlt

/-- The profiles that satisfy a condition are found by their identifiers. -/
theorem Sound.mem_matching_iff {d : Dataset} (h : d.Sound) {unit : String} {condition : Profile}
    {id : Int32} :
    id ∈ d.matching unit condition ↔
      (d.profile? unit id).any (·.satisfies condition) = true := by
  rw [matching, List.mem_map, Option.any_eq_true]
  constructor
  · rintro ⟨p, hp, rfl⟩
    obtain ⟨hrow, hmatch⟩ := List.mem_filter.mp hp
    exact ⟨p, h.mem_rows_iff.mp hrow, hmatch⟩
  · rintro ⟨p, hp, hmatch⟩
    obtain rfl := h.id_eq hp
    exact ⟨p, List.mem_filter.mpr ⟨h.mem_rows_iff.mpr hp, hmatch⟩, rfl⟩

/-- The profile at a place after the profiles that satisfy a condition are deleted. -/
theorem Sound.profile?_deleteMatching {d : Dataset} (h : d.Sound) (written : String)
    (condition : Profile) (unit : String) (id : Int32) :
    (d.deleteMatching written condition).2.profile? unit id =
      if unit = written ∧ (d.profile? unit id).any (·.satisfies condition) = true then none
      else d.profile? unit id := by
  rw [deleteMatching_eq, profile?_foldl_deleteAlso]
  by_cases hunit : unit = written
  · simp only [hunit, h.mem_matching_iff]
  · rw [if_neg fun hand => hunit hand.1, if_neg fun hand => hunit hand.1]

/-- Deletions by a condition answer whether a profile satisfied it. -/
theorem Sound.deleteMatching_found {d : Dataset} (h : d.Sound) (unit : String)
    (condition : Profile) :
    (d.deleteMatching unit condition).1 = true ↔
      ∃ id, (d.profile? unit id).any (·.satisfies condition) = true := by
  rw [deleteMatching_eq, foldl_deleteAlso_found]
  simp only [h.mem_matching_iff]
  constructor
  · rintro (hfalse | ⟨id, hmatch, -⟩)
    · cases hfalse
    · exact ⟨id, hmatch⟩
  · rintro ⟨id, hmatch⟩
    obtain ⟨p, hp, -⟩ := (Option.any_eq_true _ _).mp hmatch
    exact .inr ⟨id, hmatch, Option.isSome_iff_exists.mpr ⟨p, hp⟩⟩

/-- Carries out a write of profiles. -/
def writeProfiles (d : Dataset) : ProfileWrite → Bool × Dataset
  | .insert unit p => (true, d.insertProfile unit p)
  | .update unit p => d.updateProfile unit p
  | .delete unit id => d.deleteProfile unit id
  | .deleteMatching unit condition => d.deleteMatching unit condition

/-- A write leaves the profiles of a map. -/
theorem Sound.profile?_writeProfiles {d : Dataset} (h : d.Sound) (w : ProfileWrite) :
    (d.writeProfiles w).2.profile? = w.after d.profile? := by
  funext unit id
  rw [ProfileWrite.after]
  cases w with
  | insert written p =>
    rw [writeProfiles, profile?_insertProfile, ProfileWrite.touch]
    split
    · rfl
    · rfl
  | update written p =>
    rw [writeProfiles, profile?_updateProfile, ProfileWrite.touch]
    split
    · rfl
    · rfl
  | delete written deleted =>
    rw [writeProfiles, profile?_deleteProfile, ProfileWrite.touch]
    cases hthere : d.profile? unit id with
    | none => simp [Touch.on]
    | some p =>
      simp only [Option.isSome_some, and_true]
      split
      · rfl
      · rfl
  | deleteMatching written condition =>
    rw [writeProfiles, h.profile?_deleteMatching, ProfileWrite.touch]
    split
    · rfl
    · rfl

/-- A write answers whether it found something to change. -/
theorem Sound.writeProfiles_found {d : Dataset} (h : d.Sound) (w : ProfileWrite) :
    (d.writeProfiles w).1 = true ↔ w.Finds d.profile? := by
  cases w with
  | insert unit p => exact iff_of_true rfl trivial
  | update unit p => rw [writeProfiles, updateProfile_found, ProfileWrite.Finds]
  | delete unit id => rw [writeProfiles, deleteProfile_found, ProfileWrite.Finds]
  | deleteMatching unit condition => exact h.deleteMatching_found unit condition

/-- A write leaves the external records of a map. -/
theorem Sound.external_writeProfiles {d : Dataset} (h : d.Sound) (w : ProfileWrite)
    (i : InternalRecord) :
    (d.writeProfiles w).2.external.get? i =
      (w.recordTouch d.profile? i).on (d.external.get? i) := by
  cases w with
  | insert written p =>
    rw [ProfileWrite.recordTouch_of_ne (ProfileWrite.touch_insert_ne_clears _)]
    rfl
  | update written p =>
    rw [ProfileWrite.recordTouch_of_ne (ProfileWrite.touch_update_ne_clears _), writeProfiles,
      Dataset.updateProfile]
    split
    · rfl
    · rfl
  | delete written deleted =>
    rw [writeProfiles, external_deleteProfile, ProfileWrite.recordTouch, Touch.on_ite]
    refine ite_congr (propext ?_) (fun _ => rfl) (fun _ => rfl)
    rw [ProfileWrite.touch_delete_eq_clears]
    constructor
    · rintro ⟨rfl, hthere⟩
      exact ⟨rfl, rfl, rfl, hthere⟩
    · rintro ⟨hi, rfl, rfl, hthere⟩
      exact ⟨hi, hthere⟩
  | deleteMatching written condition =>
    rw [writeProfiles, deleteMatching_eq, external_foldl_deleteAlso, ProfileWrite.recordTouch,
      Touch.on_ite]
    refine ite_congr (propext ?_) (fun _ => rfl) (fun _ => rfl)
    rw [ProfileWrite.touch_deleteMatching_eq_clears, h.mem_matching_iff]
    constructor
    · rintro ⟨hi, hmatch, -⟩
      have hunit : i.unit = written := congrArg InternalRecord.unit hi
      exact ⟨hunit ▸ hi, hunit, hunit ▸ hmatch⟩
    · rintro ⟨hi, rfl, hmatch⟩
      obtain ⟨p, hp, -⟩ := (Option.any_eq_true _ _).mp hmatch
      exact ⟨hi, hmatch, Option.isSome_iff_exists.mpr ⟨p, hp⟩⟩

/-- A deletion of a profile changes nothing but profiles and external records. -/
theorem deleteProfile_frame (d : Dataset) (unit : String) (id : Int32) :
    (d.deleteProfile unit id).2 =
      { d with
        profiles := (d.deleteProfile unit id).2.profiles
        external := (d.deleteProfile unit id).2.external } := by
  rw [deleteProfile]
  split
  · rfl
  · rfl

/-- Deletions of profiles change nothing but profiles and external records. -/
theorem foldl_deleteAlso_frame (unit : String) (ids : List Int32) (done : Bool × Dataset) :
    (ids.foldl (deleteAlso unit) done).2 =
      { done.2 with
        profiles := (ids.foldl (deleteAlso unit) done).2.profiles
        external := (ids.foldl (deleteAlso unit) done).2.external } := by
  induction ids generalizing done with
  | nil => rfl
  | cons id ids ih =>
    have hfirst := done.2.deleteProfile_frame unit id
    rw [List.foldl_cons, ih, deleteAlso, hfirst]

/-- A write changes nothing but profiles and external records. -/
theorem writeProfiles_frame (d : Dataset) (w : ProfileWrite) :
    (d.writeProfiles w).2 =
      { d with
        profiles := (d.writeProfiles w).2.profiles
        external := (d.writeProfiles w).2.external } := by
  cases w with
  | insert unit p => rfl
  | update unit p =>
    rw [writeProfiles, updateProfile]
    split
    · rfl
    · rfl
  | delete unit id => exact d.deleteProfile_frame unit id
  | deleteMatching unit condition => exact foldl_deleteAlso_frame unit _ (false, d)

end Dataset

end RatingServer
