import RatingServer.Proofs.Store.Reachable

/-!
# The ratings of a store are a partial map

A store keeps its ratings by user and gathers those of an item when it is asked for
them, yet from outside it behaves as one partial map from places to ratings. The
five writes are told by the map that they leave and by what they find, and the
queries by the lines of the map: a line is what one user rated or who rated one
item.
-/

namespace RatingServer

namespace RatingMap

/-- The ratings of a vector, over those of a map. -/
def overwrite (m : RatingMap) (v : RatingVector) : RatingMap := fun c => (v.at? c).or (m c)

/-- The ratings of a vector over those of a map, only where the map has one. -/
def revise (m : RatingMap) (v : RatingVector) : RatingMap := fun c =>
  if (m c).isSome then (v.at? c).or (m c) else none

/-- A map without the places that a vector names. -/
def without (m : RatingMap) (v : RatingVector) : RatingMap := fun c =>
  if (v.at? c).isSome then none else m c

/-- A map without the places of one user or item. -/
def withoutLine (m : RatingMap) (s : Side) (id : Int32) : RatingMap := fun c =>
  if c.along s = id then none else m c

/-- There is a rating by a user, or of an item. -/
def Rates (m : RatingMap) (s : Side) (id : Int32) : Prop :=
  ∃ other, (m (.of s id other)).isSome = true

/-- A vector that holds exactly the ratings of one user or item. -/
structure IsLine (m : RatingMap) (s : Side) (id : Int32) (v : RatingVector) : Prop where
  /-- It is the vector of that user or item. -/
  id_eq : v.id = id
  /-- It is a vector of that side. -/
  side_eq : v.side = s
  /-- It has the ratings of the map, by what stands against the side. -/
  ratings_eq : ∀ other, v.ratings.get? other = m (.of s id other)

variable {m : RatingMap} {s : Side} {id : Int32} {v w : RatingVector}

/-- A line of a map is given by the map. -/
theorem IsLine.ext (hv : m.IsLine s id v) (hw : m.IsLine s id w) : v = w := by
  have hratings : v.ratings = w.ratings := Table.ext_get? fun other => by
    rw [hv.ratings_eq, hw.ratings_eq]
  cases v
  cases w
  simp only [RatingVector.mk.injEq]
  exact ⟨hv.id_eq.trans hw.id_eq.symm, hv.side_eq.trans hw.side_eq.symm, hratings⟩

/-- A line without ratings is that of a user or item without ratings. -/
theorem IsLine.rates_iff (h : m.IsLine s id v) : m.Rates s id ↔ v.ratings.isEmpty = false := by
  rw [← Bool.not_eq_true, Table.isEmpty_iff, Classical.not_forall, Rates]
  refine exists_congr fun other => ?_
  rw [h.ratings_eq, Option.isSome_iff_ne_none]

/-- There is a rating of a user or item exactly if there is one at one of its places. -/
theorem rates_iff : m.Rates s id ↔ ∃ c, c.along s = id ∧ (m c).isSome = true := by
  constructor
  · rintro ⟨other, h⟩
    exact ⟨_, Cell.along_of s id other, h⟩
  · rintro ⟨c, rfl, h⟩
    exact ⟨c.across s, by rwa [Cell.of_along_across]⟩

/-- The places of a line are those of its user or item at which the map has a rating. -/
theorem IsLine.at? (h : m.IsLine s id v) (c : Cell) :
    v.at? c = if c.along s = id then m c else none := by
  obtain ⟨rfl, rfl, hratings⟩ := h
  rw [RatingVector.at?]
  by_cases hid : c.along v.side = v.id
  · rw [if_pos hid, if_pos hid, hratings, ← hid, Cell.of_along_across]
  · rw [if_neg hid, if_neg hid]

end RatingMap

/-- Vectors without ratings may be dropped. -/
theorem RatingRows.at?_filter (t : RatingRows) (c : Cell) :
    at? (t.filter fun _ row => !row.ratings.isEmpty) c = t.at? c := by
  rw [at?, at?, Table.get?_filter]
  cases t.get? c.user with
  | none => rfl
  | some row =>
    cases hempty : row.ratings.isEmpty with
    | false =>
      rw [Option.filter_some_pos (by rw [hempty]; rfl)]
    | true =>
      rw [Option.filter_some_neg (by rw [hempty]; decide), Option.bind_none, Option.bind_some]
      exact ((Table.isEmpty_iff _).mp hempty c.item).symm

namespace Dataset

/-- An insertion leaves the ratings of the vector over those that were there. -/
theorem at?_insertRatings (d : Dataset) (v : RatingVector) :
    (d.insertRatings v).2.ratings.at? = RatingMap.overwrite d.ratings.at? v := by
  funext c
  refine (RatingRows.at?_forEach RatingRows.pointwise_put d.ratings v c).trans ?_
  rw [RatingMap.overwrite]
  cases v.at? c with
  | none => rfl
  | some r => rfl

/-- An insertion answers whether the vector has ratings. -/
theorem insertRatings_found (d : Dataset) (v : RatingVector) :
    (d.insertRatings v).1 = true ↔ v.ratings.isEmpty = false := by
  refine (RatingRows.found_forEach RatingRows.pointwise_put d.ratings v).trans ?_
  rw [RatingVector.isEmpty_eq_false_iff]
  exact exists_congr fun c => and_iff_left rfl

/-- An update leaves the ratings of the vector in place of those that were there. -/
theorem at?_updateRatings (d : Dataset) (v : RatingVector) :
    (d.updateRatings v).2.ratings.at? = RatingMap.revise d.ratings.at? v := by
  funext c
  refine (RatingRows.at?_forEach RatingRows.pointwise_replace d.ratings v c).trans ?_
  rw [RatingMap.revise]
  cases v.at? c with
  | none => cases d.ratings.at? c <;> rfl
  | some r => cases d.ratings.at? c <;> rfl

/-- An update answers whether a rating was there that the vector names. -/
theorem updateRatings_found (d : Dataset) (v : RatingVector) :
    (d.updateRatings v).1 = true ↔
      ∃ c, (v.at? c).isSome = true ∧ (d.ratings.at? c).isSome = true :=
  RatingRows.found_forEach RatingRows.pointwise_replace d.ratings v

/-- A deletion leaves the ratings that the vector does not name. -/
theorem at?_deleteRatings (d : Dataset) (v : RatingVector) :
    (d.deleteRatings v).2.ratings.at? = RatingMap.without d.ratings.at? v := by
  funext c
  refine (RatingRows.at?_filter _ c).trans ?_
  refine (RatingRows.at?_forEach RatingRows.pointwise_remove d.ratings v c).trans ?_
  rw [RatingMap.without]
  cases v.at? c with
  | none => rfl
  | some r => rfl

/-- A deletion answers whether a rating was there that the vector names. -/
theorem deleteRatings_found (d : Dataset) (v : RatingVector) :
    (d.deleteRatings v).1 = true ↔
      ∃ c, (v.at? c).isSome = true ∧ (d.ratings.at? c).isSome = true :=
  RatingRows.found_forEach RatingRows.pointwise_remove d.ratings v

/-- A vector gathers the ratings of an item by inserting those that the rows have. -/
private theorem foldl_gather (item : Int32) (l : List (Int32 × RatingVector)) (v : RatingVector) :
    l.foldl (gather item) v =
      { v with
        ratings := (l.filterMap fun e => (e.2.ratings.get? item).map (e.1, ·)).foldl
          (fun t e => t.insert e.1 e.2) v.ratings } := by
  induction l generalizing v with
  | nil => rfl
  | cons e l ih =>
    rw [List.foldl_cons, ih, gather]
    cases hr : e.2.ratings.get? item with
    | none => rw [List.filterMap_cons_none (by rw [hr]; rfl)]
    | some r =>
      rw [List.filterMap_cons_some (by rw [hr, Option.map_some]), List.foldl_cons]
      rfl

/-- The users of the rows that have a rating of an item stand among all users. -/
private theorem filterMap_keys_sublist (item : Int32) (l : List (Int32 × RatingVector)) :
    ((l.filterMap fun e => (e.2.ratings.get? item).map (e.1, ·)).map (·.1)).Sublist
      (l.map (·.1)) := by
  induction l with
  | nil => exact .slnil
  | cons e l ih =>
    rw [List.map_cons]
    cases hr : e.2.ratings.get? item with
    | none =>
      rw [List.filterMap_cons_none (by rw [hr]; rfl)]
      exact ih.cons _
    | some r =>
      rw [List.filterMap_cons_some (by rw [hr, Option.map_some]), List.map_cons]
      exact ih.cons_cons _

/-- The vector that is gathered for an item is its line. -/
theorem isLine_ratingsOfItem (d : Dataset) (item : Int32) :
    RatingMap.IsLine d.ratings.at? .item item (d.ratingsOfItem item) := by
  have hgather := foldl_gather item d.ratings.entries { id := item, side := .item }
  refine ⟨by rw [ratingsOfItem, hgather], by rw [ratingsOfItem, hgather], fun user => ?_⟩
  rw [ratingsOfItem, hgather]
  have hdistinct := d.ratings.nodup_keys.sublist (filterMap_keys_sublist item d.ratings.entries)
  refine Option.ext fun r => (Table.get?_ofList_eq_some_iff hdistinct).trans ?_
  rw [List.mem_filterMap, RatingRows.at?, Option.bind_eq_some_iff]
  constructor
  · rintro ⟨⟨user', row⟩, hrow, hr⟩
    obtain ⟨r', hr', heq⟩ := Option.map_eq_some_iff.mp hr
    obtain ⟨rfl, rfl⟩ := Prod.mk.inj heq
    exact ⟨row, Table.get?_eq_some_iff.mpr hrow, hr'⟩
  · rintro ⟨row, hrow, hr⟩
    exact ⟨(user, row), Table.get?_eq_some_iff.mp hrow, Option.map_eq_some_iff.mpr ⟨r, hr, rfl⟩⟩

/-- The row of a user is its line. -/
theorem Sound.isLine_row {d : Dataset} (h : d.Sound) {user : Int32} {row : RatingVector}
    (hrow : d.ratings.get? user = some row) : RatingMap.IsLine d.ratings.at? .user user row where
  id_eq := (h.rows _ _ hrow).1.id_eq
  side_eq := (h.rows _ _ hrow).1.side_eq
  ratings_eq _ := (RatingRows.at?_of_get? hrow _).symm

/-- The vector of a user or item is its line, if there is a rating in it. -/
theorem Sound.vector?_cases {d : Dataset} (h : d.Sound) (s : Side) (id : Int32) :
    (∃ v, d.vector? s id = some v ∧ RatingMap.IsLine d.ratings.at? s id v ∧
      RatingMap.Rates d.ratings.at? s id) ∨
    (d.vector? s id = none ∧ ¬RatingMap.Rates d.ratings.at? s id) := by
  cases s with
  | user =>
    rw [vector?]
    cases hrow : d.ratings.get? id with
    | none =>
      refine .inr ⟨rfl, ?_⟩
      rintro ⟨item, hrated⟩
      have hnone : d.ratings.at? ⟨id, item⟩ = none := RatingRows.at?_of_get?_none hrow
      rw [Cell.of, hnone] at hrated
      cases hrated
    | some row =>
      have hline := h.isLine_row hrow
      exact .inl ⟨row, rfl, hline, hline.rates_iff.mpr (h.rows _ _ hrow).2⟩
  | item =>
    have hline := d.isLine_ratingsOfItem id
    rw [vector?]
    cases hempty : (d.ratingsOfItem id).ratings.isEmpty with
    | true =>
      refine .inr ⟨rfl, fun hrates => ?_⟩
      rw [hline.rates_iff, hempty] at hrates
      cases hrates
    | false => exact .inl ⟨_, rfl, hline, hline.rates_iff.mpr hempty⟩

/-- The vector of a user or item is found exactly if it is its line and has a rating. -/
theorem Sound.vector?_eq_some_iff {d : Dataset} (h : d.Sound) {s : Side} {id : Int32}
    {v : RatingVector} :
    d.vector? s id = some v ↔
      RatingMap.Rates d.ratings.at? s id ∧ RatingMap.IsLine d.ratings.at? s id v := by
  rcases h.vector?_cases s id with ⟨w, hw, hline, hrates⟩ | ⟨hnone, hrates⟩
  · rw [hw, Option.some.injEq]
    exact ⟨fun heq => ⟨hrates, heq ▸ hline⟩, fun hv => hline.ext hv.2⟩
  · rw [hnone]
    exact iff_of_false nofun fun hv => hrates hv.1

/-- A deletion of one user or item leaves the ratings of all others. -/
theorem Sound.at?_deleteVector {d : Dataset} (h : d.Sound) (s : Side) (id : Int32) :
    (d.deleteVector s id).2.ratings.at? = RatingMap.withoutLine d.ratings.at? s id := by
  funext c
  cases s with
  | user =>
    rw [Dataset.deleteVector, RatingRows.at?, Table.get?_erase, RatingMap.withoutLine]
    by_cases hid : c.user = id
    · rw [if_pos hid, Option.bind_none]
      exact (if_pos hid).symm
    · rw [if_neg hid]
      exact (if_neg hid).symm
  | item =>
    rw [Dataset.deleteVector, RatingMap.withoutLine]
    rcases h.vector?_cases .item id with ⟨v, hv, hline, -⟩ | ⟨hnone, hrates⟩
    · rw [hv]
      dsimp only
      rw [at?_deleteRatings, RatingMap.without, hline.at?]
      by_cases hid : c.along .item = id
      · rw [if_pos hid, if_pos hid]
        cases d.ratings.at? c <;> rfl
      · rw [if_neg hid, if_neg hid]
        rfl
    · rw [hnone]
      by_cases hid : c.along .item = id
      · rw [if_pos hid]
        exact Option.not_isSome_iff_eq_none.mp fun hc => hrates (RatingMap.rates_iff.mpr ⟨c, hid, hc⟩)
      · rw [if_neg hid]

/-- A deletion of one user or item changes nothing but ratings. -/
theorem deleteVector_frame (d : Dataset) (s : Side) (id : Int32) :
    (d.deleteVector s id).2 = { d with ratings := (d.deleteVector s id).2.ratings } := by
  cases s with
  | user => rfl
  | item =>
    rw [Dataset.deleteVector]
    split
    · rfl
    · rfl

/-- A deletion of one user or item answers whether it had a rating. -/
theorem Sound.deleteVector_found {d : Dataset} (h : d.Sound) (s : Side) (id : Int32) :
    (d.deleteVector s id).1 = true ↔ RatingMap.Rates d.ratings.at? s id := by
  cases s with
  | user =>
    rcases h.vector?_cases .user id with ⟨v, hv, -, hrates⟩ | ⟨hnone, hrates⟩
    · refine iff_of_true ?_ hrates
      rw [Dataset.deleteVector, Table.contains, ← vector?, hv, Option.isSome_some]
    · refine iff_of_false ?_ hrates
      rw [Dataset.deleteVector, Table.contains, ← vector?, hnone, Option.isSome_none]
      exact Bool.false_ne_true
  | item =>
    rw [Dataset.deleteVector]
    rcases h.vector?_cases .item id with ⟨v, hv, hline, hrates⟩ | ⟨hnone, hrates⟩
    · rw [hv]
      refine iff_of_true ((deleteRatings_found d v).mpr ?_) hrates
      obtain ⟨c, hid, hc⟩ := RatingMap.rates_iff.mp hrates
      exact ⟨c, by rwa [hline.at?, if_pos hid], hc⟩
    · rw [hnone]
      exact iff_of_false Bool.false_ne_true hrates

/-- The users or items with a rating are those of the map: no vector is empty. -/
theorem Sound.mem_ratedIds_iff {d : Dataset} (h : d.Sound) (s : Side) (id : Int32) :
    id ∈ d.ratedIds s ↔ RatingMap.Rates d.ratings.at? s id := by
  cases s with
  | user =>
    have hvector : d.vector? .user id = d.ratings.get? id := rfl
    rw [ratedIds, Table.mem_keys_iff, ← hvector]
    rcases h.vector?_cases .user id with ⟨v, hv, -, hrates⟩ | ⟨hnone, hrates⟩
    · rw [hv]
      exact iff_of_true rfl hrates
    · rw [hnone]
      exact iff_of_false Bool.false_ne_true hrates
  | item =>
    rw [ratedIds, List.mem_flatMap]
    constructor
    · rintro ⟨row, hrow, hid⟩
      obtain ⟨⟨user, row⟩, hentry, rfl⟩ := List.mem_map.mp hrow
      refine ⟨user, ?_⟩
      rw [Cell.of, RatingRows.at?_of_get? (Table.get?_eq_some_iff.mpr hentry)]
      exact Table.mem_keys_iff.mp hid
    · rintro ⟨user, hrated⟩
      obtain ⟨r, hr⟩ := Option.isSome_iff_exists.mp hrated
      obtain ⟨row, hrow, hid⟩ := Option.bind_eq_some_iff.mp hr
      refine ⟨row, List.mem_map.mpr ⟨_, Table.get?_eq_some_iff.mp hrow, rfl⟩, ?_⟩
      exact Table.mem_keys_iff.mpr (Option.isSome_iff_exists.mpr ⟨r, hid⟩)

/-- The identifiers of a unit are those of its profiles. -/
theorem Sound.mem_unit_keys_iff {d : Dataset} (h : d.Sound) (unit : String) (id : Int32) :
    id ∈ (d.unit unit).keys ↔ ∃ p ∈ d.rows unit, p.id = id := by
  rw [← h.map_id_rows, List.mem_map]

/-- The users or items that are known are those with a rating or a profile. -/
theorem Sound.mem_ids_iff {d : Dataset} (h : d.Sound) (s : Side) (id : Int32) :
    id ∈ d.ids s ↔ RatingMap.Rates d.ratings.at? s id ∨ ∃ p ∈ d.rows s.name, p.id = id := by
  rw [ids, IdSet.ofList, Table.mem_keys_ofList_unit, List.mem_append, h.mem_ratedIds_iff,
    h.mem_unit_keys_iff]

/-- The users or items that are known stand in ascending order. -/
theorem pairwise_ids (d : Dataset) (s : Side) : (d.ids s).Pairwise (· < ·) :=
  Table.pairwise_keys _

/-- The vectors of all users or items stand in the order of their identifiers. -/
theorem Sound.pairwise_vectors {d : Dataset} (h : d.Sound) (s : Side) :
    (d.vectors s).Pairwise fun v w => v.id < w.id := by
  cases s with
  | user =>
    have hkeys : (d.ratedIds .user).Pairwise (· < ·) := d.ratings.pairwise_keys
    rw [← h.map_id_vectors] at hkeys
    exact List.pairwise_map.mp hkeys
  | item =>
    rw [vectors, List.pairwise_filterMap]
    refine (d.pairwise_ids .item).imp fun {a b} hlt v hv w hw => ?_
    rw [(h.vector?_eq_some_iff.mp hv).2.id_eq, (h.vector?_eq_some_iff.mp hw).2.id_eq]
    exact hlt

/-- The vectors of all users or items are the lines with a rating. -/
theorem Sound.mem_vectors_iff {d : Dataset} (h : d.Sound) (s : Side) (v : RatingVector) :
    v ∈ d.vectors s ↔
      RatingMap.Rates d.ratings.at? s v.id ∧ RatingMap.IsLine d.ratings.at? s v.id v := by
  rw [← h.vector?_eq_some_iff]
  cases s with
  | user =>
    rw [vectors, Table.values, List.mem_map]
    constructor
    · rintro ⟨⟨user, row⟩, hentry, rfl⟩
      have hrow := Table.get?_eq_some_iff.mpr hentry
      rw [(h.rows _ _ hrow).1.id_eq]
      exact hrow
    · exact fun hv => ⟨(v.id, v), Table.get?_eq_some_iff.mp hv, rfl⟩
  | item =>
    rw [vectors, List.mem_filterMap]
    constructor
    · rintro ⟨id, -, hv⟩
      rw [(h.vector?_eq_some_iff.mp hv).2.id_eq]
      exact hv
    · intro hv
      exact ⟨v.id, (h.mem_ids_iff .item v.id).mpr (.inl (h.vector?_eq_some_iff.mp hv).1), hv⟩

end Dataset

namespace Store

/-- The ratings of a store, as a partial map. -/
def ratingMap (s : Store) : RatingMap := s.data.ratings.at?

/-- A write of ratings: it answers whether it found anything, it leaves the ratings of
a map, and nothing but the ratings changes in the store. -/
structure Writes (s : Store) (r : Except CallError Bool × Store) (found : Prop)
    (after : RatingMap) : Prop where
  /-- It answers, and says whether it found anything. -/
  answered : ∃ b, r.1 = .ok b ∧ (b = true ↔ found)
  /-- The ratings are those of the map. -/
  rated : r.2.ratingMap = after
  /-- All else is as it was: profiles, nominal lists, records, and what was learned. -/
  frame : r.2 = { s with data := { s.data with ratings := r.2.data.ratings } }

/-- A query for rows: it changes nothing and answers nothing if there are no rows, else
a cursor before the first. -/
structure Lists {α : Type} (s : Store) (r : Except CallError (Option (RowCursor α)) × Store)
    (rows : List α) : Prop where
  /-- Nothing is answered if there are no rows. -/
  absent : rows = [] → r.1 = .ok none
  /-- Rows are answered if there are any. -/
  present : rows ≠ [] → r.1 = .ok (some (.of rows))
  /-- The store is as it was. -/
  frame : r.2 = s

/-- The operations on ratings, told by the partial map of the ratings of a store. -/
structure RefinesRatingMap (s : Store) : Prop where
  /-- An insertion overwrites the places of the vector and finds something if it has any. -/
  insert : ∀ v, s.Writes (perform (.insertRatings v) s) (v.ratings.isEmpty = false)
    (s.ratingMap.overwrite v)
  /-- An update overwrites those places of the vector that have a rating. -/
  update : ∀ v, s.Writes (perform (.updateRatings v) s)
    (∃ c, (v.at? c).isSome = true ∧ (s.ratingMap c).isSome = true) (s.ratingMap.revise v)
  /-- A deletion removes the places of the vector, whatever its ratings. -/
  delete : ∀ v, s.Writes (perform (.deleteRatings v) s)
    (∃ c, (v.at? c).isSome = true ∧ (s.ratingMap c).isSome = true) (s.ratingMap.without v)
  /-- A deletion of one user or item removes its line. -/
  deleteLine : ∀ side id, s.Writes (perform (.deleteRatingsOf side id) s)
    (s.ratingMap.Rates side id) (s.ratingMap.withoutLine side id)
  /-- A query for one user or item answers its line, or nothing without a rating. -/
  line : ∀ side id, ∃ answer, perform (.ratingsOf side id) s = (.ok answer, s) ∧
    (answer = none ↔ ¬s.ratingMap.Rates side id) ∧
    ∀ v, answer = some v → s.ratingMap.IsLine side id v
  /-- A query for all users or items lists the lines with a rating, in ascending order. -/
  lines : ∀ side, ∃ rows, s.Lists (perform (.allRatings side) s) rows ∧
    (rows.Pairwise fun v w => v.id < w.id) ∧
    ∀ v, v ∈ rows ↔ s.ratingMap.Rates side v.id ∧ s.ratingMap.IsLine side v.id v
  /-- A query for identifiers lists those with a rating or a profile, in ascending order. -/
  ids : ∀ side, ∃ rows, s.Lists (perform (.ids side) s) rows ∧ rows.Pairwise (· < ·) ∧
    ∀ id, id ∈ rows ↔ s.ratingMap.Rates side id ∨ ∃ p ∈ s.data.rows side.name, p.id = id

/-- The answer to a query for rows. -/
theorem lists_cursor {α : Type} (s : Store) (rows : List α) :
    s.Lists (.ok (cursor? rows), s) rows where
  absent h := by rw [h]; rfl
  present h := by
    rw [cursor?, if_neg]
    rwa [List.isEmpty_iff]
  frame := rfl

/-- An insertion of ratings is a write of ratings. -/
theorem writes_insertRatings (s : Store) (v : RatingVector) :
    s.Writes (perform (.insertRatings v) s) (v.ratings.isEmpty = false)
      (s.ratingMap.overwrite v) where
  answered := ⟨_, rfl, s.data.insertRatings_found v⟩
  rated := s.data.at?_insertRatings v
  frame := rfl

/-- An update of ratings is a write of ratings. -/
theorem writes_updateRatings (s : Store) (v : RatingVector) :
    s.Writes (perform (.updateRatings v) s)
      (∃ c, (v.at? c).isSome = true ∧ (s.ratingMap c).isSome = true) (s.ratingMap.revise v) where
  answered := ⟨_, rfl, s.data.updateRatings_found v⟩
  rated := s.data.at?_updateRatings v
  frame := rfl

/-- A deletion of ratings is a write of ratings. -/
theorem writes_deleteRatings (s : Store) (v : RatingVector) :
    s.Writes (perform (.deleteRatings v) s)
      (∃ c, (v.at? c).isSome = true ∧ (s.ratingMap c).isSome = true) (s.ratingMap.without v) where
  answered := ⟨_, rfl, s.data.deleteRatings_found v⟩
  rated := s.data.at?_deleteRatings v
  frame := rfl

/-- A deletion of the ratings of one user or item is a write of ratings. -/
theorem Reachable.writes_deleteRatingsOf {s : Store} (h : s.Reachable) (side : Side)
    (id : Int32) :
    s.Writes (perform (.deleteRatingsOf side id) s) (s.ratingMap.Rates side id)
      (s.ratingMap.withoutLine side id) where
  answered := ⟨_, rfl, h.sound.deleteVector_found side id⟩
  rated := h.sound.at?_deleteVector side id
  frame := congrArg (fun data => { s with data }) (s.data.deleteVector_frame side id)

/-- The ratings of every store that can be reached are a partial map: the operations on
ratings are those on the map. -/
theorem Reachable.refines_rating_map {s : Store} (h : s.Reachable) : s.RefinesRatingMap where
  insert := s.writes_insertRatings
  update := s.writes_updateRatings
  delete := s.writes_deleteRatings
  deleteLine := h.writes_deleteRatingsOf
  line side id := by
    refine ⟨s.data.vector? side id, rfl, ?_, fun v hv => (h.sound.vector?_eq_some_iff.mp hv).2⟩
    rcases h.sound.vector?_cases side id with ⟨v, hv, -, hrates⟩ | ⟨hnone, hrates⟩
    · rw [hv]
      exact iff_of_false nofun fun hnot => hnot hrates
    · exact iff_of_true hnone hrates
  lines side :=
    ⟨_, s.lists_cursor _, h.sound.pairwise_vectors side, h.sound.mem_vectors_iff side⟩
  ids side := ⟨_, s.lists_cursor _, s.data.pairwise_ids side, h.sound.mem_ids_iff side⟩

/-- A store in which an item was rated by two users, one of whom was then forgotten. -/
def ratedSample : Store :=
  let s := Store.of .default .empty []
  let v : RatingVector := ⟨13, .item, .ofList [(1, { value := 2.0 }), (2, { value := 4.5 })]⟩
  (perform (.deleteRatingsOf .user 1) (perform (.insertRatings v) s).2).2

/-- The ratings of a store with one rating left are a partial map. -/
theorem Reachable.refines_rating_map_sample :
    ratedSample.Reachable ∧ (ratedSample.ratingMap ⟨1, 13⟩).isSome = false ∧
      (ratedSample.ratingMap ⟨2, 13⟩).isSome = true ∧ ratedSample.RefinesRatingMap := by
  have h : ratedSample.Reachable := .performed _ (.performed _ (.new _ _ _))
  exact ⟨h, by decide +kernel, by decide +kernel, h.refines_rating_map⟩

end Store

end RatingServer
