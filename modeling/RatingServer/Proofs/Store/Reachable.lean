import RatingServer.Proofs.Store.RatingRows
import RatingServer.Store.Basic

/-!
# Reachable stores

A store starts empty and is changed by operations, by opening and closing, by new
configurations and by its periodic tasks. In every store that can be reached so,
each vector is that of the user for whom it is kept and has ratings, and each
profile stands under its own identifier. A deletion by a vector removes ratings one
by one and may leave vectors empty on its way; they are dropped at its end.
-/

namespace RatingServer

/-- A vector that stands for the ratings of a user. -/
structure RatingVector.IsOf (user : Int32) (row : RatingVector) : Prop where
  /-- Its identifier is the user. -/
  id_eq : row.id = user
  /-- It is a vector of a user. -/
  side_eq : row.side = .user

namespace RatingRows

/-- A vector that is kept for a user: it is that user's and has ratings. -/
def Kept (user : Int32) (row : RatingVector) : Prop :=
  row.IsOf user ∧ row.ratings.isEmpty = false

/-- A rating that is put joins a vector that is kept, or begins one. -/
theorem each_put {t : RatingRows} (ht : t.Each Kept) (c : Cell) (r : Rating) :
    (t.put c r).Each Kept := by
  refine Table.Each.insert ht ⟨?_, Table.isEmpty_insert _ _ _⟩
  cases hrow : t.get? c.user with
  | none => exact ⟨rfl, rfl⟩
  | some row =>
    have hof := (ht _ _ hrow).1
    exact ⟨hof.id_eq, hof.side_eq⟩

/-- A rating that is replaced stays in a vector that is kept. -/
theorem each_replace {t : RatingRows} (ht : t.Each Kept) (c : Cell) (r : Rating) :
    (t.replace c r).2.Each Kept := by
  rw [replace]
  cases hrow : t.get? c.user with
  | none => exact ht
  | some row =>
    dsimp only
    split
    · have hof := (ht _ _ hrow).1
      exact Table.Each.insert ht ⟨⟨hof.id_eq, hof.side_eq⟩, Table.isEmpty_insert _ _ _⟩
    · exact ht

/-- A vector from which a rating is removed stays that of its user. -/
theorem each_remove {t : RatingRows} (ht : t.Each RatingVector.IsOf) (c : Cell) :
    (t.remove c).2.Each RatingVector.IsOf := by
  rw [remove]
  cases hrow : t.get? c.user with
  | none => exact ht
  | some row =>
    have hof := ht _ _ hrow
    exact Table.Each.insert ht ⟨hof.id_eq, hof.side_eq⟩

/-- Rows that are kept are given by their ratings. -/
theorem ext_at? {t t' : RatingRows} (ht : t.Each Kept) (ht' : t'.Each Kept)
    (h : t.at? = t'.at?) : t = t' := by
  -- A row that is kept has a rating, so that the map tells which rows there are.
  have hsome : ∀ {t t' : RatingRows}, t.Each Kept → t.at? = t'.at? →
      ∀ {user row}, t.get? user = some row → ∃ row', t'.get? user = some row' := by
    intro t t' ht h user row hrow
    have hrated : ¬ ∀ item, row.ratings.get? item = none := fun hnone => by
      have hempty := (Table.isEmpty_iff row.ratings).mpr hnone
      rw [(ht _ _ hrow).2] at hempty
      cases hempty
    obtain ⟨item, hitem⟩ := Classical.not_forall.mp hrated
    cases hrow' : t'.get? user with
    | some row' => exact ⟨row', rfl⟩
    | none =>
      have hat := at?_of_get? hrow item
      rw [h, at?_of_get?_none hrow'] at hat
      exact absurd hat.symm hitem
  refine Table.ext_get? fun user => ?_
  cases hrow : t.get? user with
  | none =>
    cases hrow' : t'.get? user with
    | none => rfl
    | some row' =>
      obtain ⟨row, hother⟩ := hsome ht' h.symm hrow'
      rw [hrow] at hother
      cases hother
  | some row =>
    obtain ⟨row', hrow'⟩ := hsome ht h hrow
    have hof := (ht _ _ hrow).1
    have hof' := (ht' _ _ hrow').1
    have hratings : row.ratings = row'.ratings := Table.ext_get? fun item => by
      rw [← at?_of_get? hrow, ← at?_of_get? hrow', h]
    rw [hrow', Option.some.injEq]
    cases row
    cases row'
    simp only [RatingVector.mk.injEq]
    exact ⟨hof.id_eq.trans hof'.id_eq.symm, hof.side_eq.trans hof'.side_eq.symm, hratings⟩

end RatingRows

/-- What holds of the data of every store: vectors are kept for their users, and
profiles stand under their own identifiers. -/
structure Dataset.Sound (d : Dataset) : Prop where
  /-- Every vector is that of its user and has ratings. -/
  rows : d.ratings.Each RatingRows.Kept
  /-- Every profile stands under its own identifier. -/
  profiles : d.profiles.Each fun _ unit => unit.Each fun id p => p.id = id

namespace Dataset

/-- Data without ratings and profiles are sound. -/
theorem Sound.empty : Sound {} where
  rows := .empty
  profiles := .empty

namespace Sound

variable {d : Dataset} (h : d.Sound)
include h

/-- Other nominal lists and external records do not matter. -/
theorem congr {d' : Dataset} (hratings : d'.ratings = d.ratings)
    (hprofiles : d'.profiles = d.profiles) : d'.Sound where
  rows := hratings ▸ h.rows
  profiles := hprofiles ▸ h.profiles

/-- The profiles of a unit stand under their own identifiers. -/
theorem unit (unit : String) : (d.unit unit).Each fun id p => p.id = id := by
  rw [Dataset.unit]
  cases hunit : d.profiles.get? unit with
  | none => exact .empty
  | some t => exact h.profiles _ _ hunit

/-- The rows of a unit have the identifiers under which they stand. -/
theorem map_id_rows (unit : String) : (d.rows unit).map (·.id) = (d.unit unit).keys := by
  rw [Dataset.rows, Table.values, Table.keys, List.map_map]
  refine List.map_congr_left fun e he => ?_
  exact h.unit unit e.1 e.2 (Table.get?_eq_some_iff.mpr he)

/-- The vectors of users have the identifiers under which they stand. -/
theorem map_id_vectors : (d.vectors .user).map (·.id) = d.ratedIds .user := by
  rw [vectors, ratedIds, Table.values, Table.keys, List.map_map]
  refine List.map_congr_left fun e he => ?_
  exact (h.rows e.1 e.2 (Table.get?_eq_some_iff.mpr he)).1.id_eq

/-- The profiles of a unit may be set to ones that stand under their own identifiers. -/
theorem setUnit {unit : String} {t : Table Int32 Profile} (ht : t.Each fun id p => p.id = id) :
    (d.setUnit unit t).Sound where
  rows := h.rows
  profiles := h.profiles.insert ht

/-- Insertions of ratings keep data sound. -/
theorem insertRatings (v : RatingVector) : (d.insertRatings v).2.Sound where
  rows := RatingRows.forEach_induction (I := fun t => t.Each RatingRows.Kept)
    (fun _ c r ht => RatingRows.each_put ht c r) h.rows v
  profiles := h.profiles

/-- Replacements of ratings keep data sound. -/
theorem updateRatings (v : RatingVector) : (d.updateRatings v).2.Sound where
  rows := RatingRows.forEach_induction (I := fun t => t.Each RatingRows.Kept)
    (fun _ c r ht => RatingRows.each_replace ht c r) h.rows v
  profiles := h.profiles

/-- Deletions of ratings keep data sound: vectors that are left empty are dropped. -/
theorem deleteRatings (v : RatingVector) : (d.deleteRatings v).2.Sound where
  rows := by
    have hof : d.ratings.Each RatingVector.IsOf := h.rows.imp fun _ _ hrow => hrow.1
    have hleft := RatingRows.forEach_induction (I := fun t => t.Each RatingVector.IsOf)
      (fun _ c _ ht => RatingRows.each_remove ht c) hof v
    refine (hleft.filter fun _ row => !row.ratings.isEmpty).imp fun _ _ hrow => ⟨hrow.1, ?_⟩
    exact Bool.not_eq_true' _ ▸ hrow.2
  profiles := h.profiles

/-- Deletions of the ratings of one user or item keep data sound. -/
theorem deleteVector (s : Side) (id : Int32) : (d.deleteVector s id).2.Sound := by
  cases s with
  | user => exact ⟨h.rows.erase id, h.profiles⟩
  | item =>
    rw [Dataset.deleteVector]
    split
    · exact h
    · exact h.deleteRatings _

/-- An inserted profile stands under its own identifier. -/
theorem insertProfile (unit : String) (p : Profile) : (d.insertProfile unit p).Sound :=
  h.setUnit ((h.unit unit).insert rfl)

/-- An insertion of a profile with a record keeps data sound. -/
theorem insertWithRecord (unit : String) (p : Profile) (r : Option ExternalRecord) :
    (d.insertWithRecord unit p r).Sound := by
  cases r with
  | none => exact h.insertProfile unit p
  | some r => exact (h.insertProfile unit p).congr rfl rfl

/-- A replacement of a profile keeps data sound. -/
theorem updateProfile (unit : String) (p : Profile) : (d.updateProfile unit p).2.Sound := by
  rw [Dataset.updateProfile]
  split
  · exact h.insertProfile unit p
  · exact h.setUnit (h.unit unit)

/-- A deletion of a profile keeps data sound. -/
theorem deleteProfile (unit : String) (id : Int32) : (d.deleteProfile unit id).2.Sound := by
  rw [Dataset.deleteProfile]
  split
  · exact (h.setUnit ((h.unit unit).erase id)).congr rfl rfl
  · exact h.setUnit (h.unit unit)

/-- Deletions of the profiles that satisfy a condition keep data sound. -/
theorem deleteMatching (unit : String) (condition : Profile) :
    (d.deleteMatching unit condition).2.Sound := by
  rw [Dataset.deleteMatching]
  generalize ((d.rows unit).filter (·.satisfies condition)).map (·.id) = ids
  generalize false = any
  induction ids generalizing any d with
  | nil => exact h
  | cons id ids ih => exact ih (h.deleteProfile unit id) _

/-- An update of a record keeps data sound. -/
theorem updateExternal (i : InternalRecord) (e : ExternalRecord) :
    (d.updateExternal i e).2.Sound := by
  rw [Dataset.updateExternal]
  split
  · exact h.congr rfl rfl
  · exact h

/-- An update of a nominal value keeps data sound. -/
theorem updateNominal (key : NominalKey) (n : Nominal) : (d.updateNominal key n).2.Sound := by
  rw [Dataset.updateNominal]
  split
  · exact h
  · split
    · exact h.congr rfl rfl
    · exact h

end Sound

end Dataset

namespace Store

/-- Every operation keeps the data of a store sound. -/
theorem sound_perform {s : Store} (h : s.data.Sound) (op : Operation) :
    (perform op s).2.data.Sound := by
  cases op with
  | insertRatings v => exact h.insertRatings v
  | updateRatings v => exact h.updateRatings v
  | deleteRatings v => exact h.deleteRatings v
  | deleteRatingsOf side id => exact h.deleteVector side id
  | insertProfile side p r => exact h.insertWithRecord side.name p r
  | updateProfile side p => exact h.updateProfile side.name p
  | deleteProfile side id => exact h.deleteProfile side.name id
  | insertNominal unit attr n => exact h.congr rfl rfl
  | updateNominal unit attr n => exact h.updateNominal _ n
  | deleteNominals unit attr => exact h.congr rfl rfl
  | insertExternal i e => exact h.congr rfl rfl
  | updateExternal i e => exact h.updateExternal i e
  | deleteExternal i => exact h.congr rfl rfl
  | insertSample p => exact h.insertProfile sampleUnit p
  | updateSample p => exact h.updateProfile sampleUnit p
  | deleteSamples c => exact h.deleteMatching sampleUnit c
  | insertRow unit p => exact h.insertProfile unit p
  | updateRow unit p => exact h.updateProfile unit p
  | deleteRows unit c => exact h.deleteMatching unit c
  | _ => exact h

/-- The stores that can be reached from an empty one. -/
inductive Reachable : Store → Prop where
  /-- An empty store. -/
  | new (config : ServerConfig) (accounts : Accounts) (evaluators : List String) :
    Reachable (.of config accounts evaluators)
  /-- After an operation. -/
  | performed {s : Store} (op : Operation) : Reachable s → Reachable (perform op s).2
  /-- After it was opened. -/
  | opened {s : Store} (config : ServerConfig) : Reachable s → Reachable (s.openWith config)
  /-- After it was closed. -/
  | closed {s : Store} : Reachable s → Reachable s.close
  /-- After it took a new configuration. -/
  | reconfigured {s : Store} (config : ServerConfig) :
    Reachable s → Reachable (s.reconfigure config)
  /-- After the periodic tasks. -/
  | ranTasks {s : Store} : Reachable s → Reachable s.runTasks
  /-- After a change of the accounts and evaluators, which it shares with its server. -/
  | shared {s : Store} (accounts : Accounts) (evaluators : EvaluatorDirectory) :
    Reachable s → Reachable { s with accounts, evaluators }

/-- The data of every store that can be reached are sound. -/
theorem Reachable.sound {s : Store} (h : s.Reachable) : s.data.Sound := by
  induction h with
  | new config accounts evaluators => exact .empty
  | performed op _ ih => exact sound_perform ih op
  | opened config _ ih => exact ih
  | closed _ ih => exact ih
  | reconfigured config _ ih => exact ih
  | ranTasks _ ih => exact ih
  | shared accounts evaluators _ ih => exact ih

/-- Performs operations one after another. -/
def performAll (s : Store) (ops : List Operation) : Store :=
  ops.foldl (fun s op => (perform op s).2) s

/-- Operations are performed after those before them. -/
theorem performAll_append (s : Store) (ops ops' : List Operation) :
    s.performAll (ops ++ ops') = (s.performAll ops).performAll ops' :=
  List.foldl_append

/-- Operations lead from stores that can be reached to such stores. -/
theorem Reachable.performAll {s : Store} (h : s.Reachable) (ops : List Operation) :
    (s.performAll ops).Reachable := by
  induction ops generalizing s with
  | nil => exact h
  | cons op ops ih => exact ih (.performed op h)

end Store

end RatingServer
