import RatingServer.Proofs.Store.Replay

/-!
# Stores that cannot be told apart

A unit of which no profile is left may still be known to a store, or never have been. No
operation shows which: two stores that differ in nothing else answer every operation
alike, and go on to do so whatever operations both of them perform.
-/

namespace RatingServer

namespace Dataset

/-- Data that differ at most in which units are known without having a profile. -/
structure Indistinct (d d' : Dataset) : Prop where
  /-- The ratings are the same. -/
  ratings_eq : d.ratings = d'.ratings
  /-- Every unit has the same profiles. -/
  unit_eq : ∀ unit, d.unit unit = d'.unit unit
  /-- The nominal lists are the same. -/
  nominals_eq : d.nominals = d'.nominals
  /-- The external records are the same. -/
  external_eq : d.external = d'.external

/-- The profiles of a unit after those of some unit are set. -/
theorem unit_setUnit (d : Dataset) (written : String) (t : Table Int32 Profile) (unit : String) :
    (d.setUnit written t).unit unit = if unit = written then t else d.unit unit := by
  rw [Dataset.unit, setUnit, Table.get?_insert]
  split
  · rfl
  · rfl

/-- Changes that both find something or both find nothing, and leave data that cannot be
told apart. -/
structure SameChange (r r' : Bool × Dataset) : Prop where
  /-- Both find the same. -/
  found_eq : r.1 = r'.1
  /-- The data cannot be told apart. -/
  data : r.2.Indistinct r'.2

namespace Indistinct

variable {d d' : Dataset} (h : d.Indistinct d')
include h

/-- Data that cannot be told apart agree in all that a snapshot has. -/
theorem alike : d.Alike d' where
  ratings_eq := h.ratings_eq
  unit_eq side := h.unit_eq side.name
  nominals_eq := h.nominals_eq
  external_eq := h.external_eq

/-- The same profiles stand in every unit. -/
theorem rows_eq (unit : String) : d.rows unit = d'.rows unit := by
  rw [rows, rows, h.unit_eq]

/-- The same profile is found by a condition. -/
theorem find?_eq (unit : String) (condition : Profile) :
    d.find? unit condition = d'.find? unit condition := by
  rw [find?, find?, h.rows_eq]

/-- The same attributes are told. -/
theorem attributes?_eq (unit : String) : d.attributes? unit = d'.attributes? unit := by
  rw [attributes?, attributes?, h.rows_eq]

/-- Changes that always find something. -/
theorem sameChange (found : Bool) : SameChange (found, d) (found, d') := ⟨rfl, h⟩

/-- The profiles of a unit may be set in both. -/
theorem setUnit (unit : String) (t : Table Int32 Profile) :
    (d.setUnit unit t).Indistinct (d'.setUnit unit t) where
  ratings_eq := h.ratings_eq
  unit_eq unit' := by rw [unit_setUnit, unit_setUnit, h.unit_eq]
  nominals_eq := h.nominals_eq
  external_eq := h.external_eq

/-- The ratings may be set in both. -/
theorem withRatings (ratings : RatingRows) :
    { d with ratings }.Indistinct { d' with ratings } :=
  ⟨rfl, h.unit_eq, h.nominals_eq, h.external_eq⟩

/-- The nominal lists may be set in both. -/
theorem withNominals (nominals : Table NominalKey NominalList) :
    { d with nominals }.Indistinct { d' with nominals } :=
  ⟨h.ratings_eq, h.unit_eq, rfl, h.external_eq⟩

/-- The external records may be set in both. -/
theorem withExternal (external : Table InternalRecord ExternalRecord) :
    { d with external }.Indistinct { d' with external } :=
  ⟨h.ratings_eq, h.unit_eq, h.nominals_eq, rfl⟩

/-- Insertions of ratings. -/
theorem insertRatings (v : RatingVector) :
    SameChange (d.insertRatings v) (d'.insertRatings v) := by
  rw [Dataset.insertRatings, Dataset.insertRatings, h.ratings_eq]
  exact ⟨rfl, h.withRatings _⟩

/-- Replacements of ratings. -/
theorem updateRatings (v : RatingVector) :
    SameChange (d.updateRatings v) (d'.updateRatings v) := by
  rw [Dataset.updateRatings, Dataset.updateRatings, h.ratings_eq]
  exact ⟨rfl, h.withRatings _⟩

/-- Deletions of ratings. -/
theorem deleteRatings (v : RatingVector) :
    SameChange (d.deleteRatings v) (d'.deleteRatings v) := by
  rw [Dataset.deleteRatings, Dataset.deleteRatings, h.ratings_eq]
  exact ⟨rfl, h.withRatings _⟩

/-- Deletions of the ratings of one user or item. -/
theorem deleteVector (side : Side) (id : Int32) :
    SameChange (d.deleteVector side id) (d'.deleteVector side id) := by
  cases side with
  | user =>
    rw [Dataset.deleteVector, Dataset.deleteVector, h.ratings_eq]
    exact ⟨rfl, h.withRatings _⟩
  | item =>
    rw [Dataset.deleteVector, Dataset.deleteVector, h.alike.vector?_eq]
    split
    · exact ⟨rfl, h⟩
    · exact h.deleteRatings _

/-- Insertions of a profile. -/
theorem insertProfile (unit : String) (p : Profile) :
    (d.insertProfile unit p).Indistinct (d'.insertProfile unit p) := by
  rw [Dataset.insertProfile, Dataset.insertProfile, h.unit_eq]
  exact h.setUnit _ _

/-- Insertions of a profile, with a record or without. -/
theorem insertWithRecord (unit : String) (p : Profile) (r : Option ExternalRecord) :
    (d.insertWithRecord unit p r).Indistinct (d'.insertWithRecord unit p r) := by
  have hinsert := h.insertProfile unit p
  cases r with
  | none => exact hinsert
  | some e =>
    have hrecords : (d.insertProfile unit p).external = (d'.insertProfile unit p).external :=
      hinsert.external_eq
    rw [Dataset.insertWithRecord, Dataset.insertWithRecord, hrecords]
    exact hinsert.withExternal _

/-- Replacements of a profile. -/
theorem updateProfile (unit : String) (p : Profile) :
    SameChange (d.updateProfile unit p) (d'.updateProfile unit p) := by
  rw [Dataset.updateProfile, Dataset.updateProfile, h.unit_eq]
  split
  · exact ⟨rfl, h.setUnit _ _⟩
  · exact ⟨rfl, h.setUnit _ _⟩

/-- Deletions of a profile. -/
theorem deleteProfile (unit : String) (id : Int32) :
    SameChange (d.deleteProfile unit id) (d'.deleteProfile unit id) := by
  rw [Dataset.deleteProfile, Dataset.deleteProfile, h.unit_eq, h.external_eq]
  split
  · exact ⟨rfl, (h.setUnit _ _).withExternal _⟩
  · exact ⟨rfl, h.setUnit _ _⟩

/-- Deletions of several profiles. -/
theorem foldl_deleteAlso (unit : String) (ids : List Int32) (found : Bool) :
    SameChange (ids.foldl (deleteAlso unit) (found, d))
      (ids.foldl (deleteAlso unit) (found, d')) := by
  induction ids generalizing d d' found with
  | nil => exact ⟨rfl, h⟩
  | cons id ids ih =>
    have hfirst := h.deleteProfile unit id
    rw [List.foldl_cons, List.foldl_cons, deleteAlso, deleteAlso, hfirst.found_eq]
    exact ih hfirst.data _

/-- Deletions of the profiles that satisfy a condition. -/
theorem deleteMatching (unit : String) (condition : Profile) :
    SameChange (d.deleteMatching unit condition) (d'.deleteMatching unit condition) := by
  rw [deleteMatching_eq, deleteMatching_eq, matching, matching, h.rows_eq]
  exact h.foldl_deleteAlso unit _ false

/-- Insertions of a nominal value. -/
theorem insertNominal (key : NominalKey) (n : Nominal) :
    (d.insertNominal key n).Indistinct (d'.insertNominal key n) := by
  rw [Dataset.insertNominal, Dataset.insertNominal, h.nominals_eq]
  exact h.withNominals _

/-- Replacements of a nominal value. -/
theorem updateNominal (key : NominalKey) (n : Nominal) :
    SameChange (d.updateNominal key n) (d'.updateNominal key n) := by
  rw [Dataset.updateNominal, Dataset.updateNominal, h.nominals_eq]
  split
  · exact ⟨rfl, h⟩
  · split
    · exact ⟨rfl, h.withNominals _⟩
    · exact ⟨rfl, h⟩

/-- Replacements of an external record. -/
theorem updateExternal (i : InternalRecord) (e : ExternalRecord) :
    SameChange (d.updateExternal i e) (d'.updateExternal i e) := by
  rw [Dataset.updateExternal, Dataset.updateExternal, h.external_eq]
  split
  · exact ⟨rfl, h.withExternal _⟩
  · exact ⟨rfl, h⟩

end Indistinct

end Dataset

namespace Store

/-- Stores that differ at most in which units are known without having a profile. -/
structure Indistinct (s t : Store) : Prop where
  /-- The data cannot be told apart. -/
  data : s.data.Indistinct t.data
  /-- All else is the same. -/
  frame : t = { s with data := t.data }

/-- Steps with the same answer that leave stores which cannot be told apart. -/
structure SameStep {α : Type} (r r' : Except CallError α × Store) : Prop where
  /-- The answers are the same. -/
  answer_eq : r.1 = r'.1
  /-- The stores cannot be told apart. -/
  store : r.2.Indistinct r'.2

/-- Changes of the data of a store that cannot be told apart. -/
theorem sameStep_changed {r r' : Bool × Dataset} (h : Dataset.SameChange r r') (s : Store)
    (data : Dataset) : SameStep (s.changed r) ({ s with data }.changed r') :=
  ⟨congrArg Except.ok h.found_eq, h.data, rfl⟩

/-- Stores that cannot be told apart perform an operation with the same answer, and cannot
be told apart afterwards. -/
theorem Indistinct.perform {s t : Store} (h : s.Indistinct t) (op : Operation) :
    SameStep (perform op s) (perform op t) := by
  obtain ⟨hdata, hframe⟩ := h
  rw [hframe]
  generalize t.data = d at hdata
  have hsame : s.Indistinct { s with data := d } := ⟨hdata, rfl⟩
  have hcopied := hdata.alike
  cases op with
  | insertRatings v => exact sameStep_changed (hdata.insertRatings v) s d
  | updateRatings v => exact sameStep_changed (hdata.updateRatings v) s d
  | deleteRatings v => exact sameStep_changed (hdata.deleteRatings v) s d
  | deleteRatingsOf side id => exact sameStep_changed (hdata.deleteVector side id) s d
  | insertProfile side p r =>
    exact sameStep_changed ((hdata.insertWithRecord side.name p r).sameChange true) s d
  | updateProfile side p => exact sameStep_changed (hdata.updateProfile side.name p) s d
  | deleteProfile side id => exact sameStep_changed (hdata.deleteProfile side.name id) s d
  | insertSample p =>
    exact sameStep_changed ((hdata.insertProfile sampleUnit p).sameChange true) s d
  | updateSample p => exact sameStep_changed (hdata.updateProfile sampleUnit p) s d
  | deleteSamples c => exact sameStep_changed (hdata.deleteMatching sampleUnit c) s d
  | insertRow unit p =>
    exact sameStep_changed ((hdata.insertProfile unit p).sameChange true) s d
  | updateRow unit p => exact sameStep_changed (hdata.updateProfile unit p) s d
  | deleteRows unit c => exact sameStep_changed (hdata.deleteMatching unit c) s d
  | insertNominal unit attr n =>
    exact sameStep_changed ((hdata.insertNominal ⟨unit, attr⟩ n).sameChange true) s d
  | updateNominal unit attr n => exact sameStep_changed (hdata.updateNominal ⟨unit, attr⟩ n) s d
  | deleteNominals unit attr =>
    rw [Store.perform, Store.perform, hdata.nominals_eq]
    exact sameStep_changed ((hdata.withNominals _).sameChange _) s d
  | insertExternal i e =>
    rw [Store.perform, Store.perform, hdata.external_eq]
    exact sameStep_changed ((hdata.withExternal _).sameChange true) s d
  | updateExternal i e => exact sameStep_changed (hdata.updateExternal i e) s d
  | deleteExternal i =>
    rw [Store.perform, Store.perform, hdata.external_eq]
    exact sameStep_changed ((hdata.withExternal _).sameChange _) s d
  | recommend target limit => exact ⟨by simp only [Store.perform, hcopied.ids_eq], hsame⟩
  | recommendUser user limit =>
    exact ⟨by simp only [Store.perform, hcopied.ids_eq, hcopied.vector?_eq], hsame⟩
  | ids side => exact ⟨by simp only [Store.perform, hcopied.ids_eq], hsame⟩
  | ratingsOf side id => exact ⟨by simp only [Store.perform, hcopied.vector?_eq], hsame⟩
  | allRatings side => exact ⟨by simp only [Store.perform, hcopied.vectors_eq], hsame⟩
  | profileOf side id => exact ⟨by simp only [Store.perform, hcopied.profile?_eq], hsame⟩
  | profileOfExternal side value =>
    exact ⟨by simp only [Store.perform, hcopied.profileOfExternal?_eq], hsame⟩
  | profiles side => exact ⟨by simp only [Store.perform, hdata.rows_eq], hsame⟩
  | attributes side => exact ⟨by simp only [Store.perform, hdata.attributes?_eq], hsame⟩
  | externalOf side id => exact ⟨by simp only [Store.perform, hdata.external_eq], hsame⟩
  | nominals unit attr => exact ⟨by simp only [Store.perform, hdata.nominals_eq], hsame⟩
  | external i => exact ⟨by simp only [Store.perform, hdata.external_eq], hsame⟩
  | findSample c => exact ⟨by simp only [Store.perform, hdata.find?_eq], hsame⟩
  | sampleAttributes => exact ⟨by simp only [Store.perform, hdata.attributes?_eq], hsame⟩
  | findRow unit c => exact ⟨by simp only [Store.perform, hdata.find?_eq], hsame⟩
  | rowAttributes unit => exact ⟨by simp only [Store.perform, hdata.attributes?_eq], hsame⟩
  | snapshot =>
    have hcopy : s.snapshot = { s with data := d }.snapshot := snapshot_eq_of_alike hcopied rfl
    exact ⟨by simp only [Store.perform, hcopy], hsame⟩
  | _ => exact ⟨rfl, hsame⟩

/-- Stores that cannot be told apart stay so, whatever operations both perform. -/
theorem Indistinct.performAll {s t : Store} (h : s.Indistinct t) (ops : List Operation) :
    (s.performAll ops).Indistinct (t.performAll ops) := by
  induction ops generalizing s t with
  | nil => exact h
  | cons op ops ih => exact ih (h.perform op).store

end Store

end RatingServer
