import RatingServer.Proofs.Table.Lookup
import RatingServer.Store.Dataset

/-!
# Rows of ratings as a partial map

The vectors that are kept for the users are seen as one partial map from places to
ratings. Each change at a place is told by what becomes of the rating there, and a
change for each rating of a vector by what the vector names: its places are
distinct, so every one of them is met once and no change sees another.
-/

namespace RatingServer

/-- A partial map from the places between users and items to ratings. -/
abbrev RatingMap := Cell → Option Rating

namespace Cell

@[simp] theorem along_of (s : Side) (id other : Int32) : (of s id other).along s = id := by
  cases s <;> rfl

@[simp] theorem across_of (s : Side) (id other : Int32) : (of s id other).across s = other := by
  cases s <;> rfl

/-- A place is given by what stands on a side and what stands against it. -/
@[simp] theorem of_along_across (s : Side) (c : Cell) : of s (c.along s) (c.across s) = c := by
  cases s <;> rfl

/-- The places of one user or item are told apart by what stands against it. -/
theorem of_inj {s : Side} {id a b : Int32} : of s id a = of s id b ↔ a = b := by
  constructor
  · intro h
    rw [← across_of s id a, h, across_of]
  · exact fun h => h ▸ rfl

end Cell

namespace RatingVector

/-- The rating that a vector names at a place. -/
def at? (v : RatingVector) : RatingMap := fun c =>
  if c.along v.side = v.id then v.ratings.get? (c.across v.side) else none

/-- The ratings of a vector at its own places. -/
theorem at?_of (v : RatingVector) (other : Int32) :
    v.at? (.of v.side v.id other) = v.ratings.get? other := by
  rw [at?, Cell.along_of, Cell.across_of, if_pos rfl]

/-- The places with ratings that a vector names. -/
theorem mem_cells_iff {v : RatingVector} {c : Cell} {r : Rating} :
    (c, r) ∈ v.cells ↔ v.at? c = some r := by
  rw [cells, List.mem_map]
  constructor
  · rintro ⟨⟨other, r'⟩, hmem, heq⟩
    obtain ⟨rfl, rfl⟩ := Prod.mk.inj heq
    rw [at?_of]
    exact Table.get?_eq_some_iff.mpr hmem
  · intro h
    unfold at? at h
    by_cases hid : c.along v.side = v.id
    · rw [if_pos hid] at h
      refine ⟨(c.across v.side, r), Table.get?_eq_some_iff.mp h, ?_⟩
      dsimp only
      rw [← hid, Cell.of_along_across]
    · rw [if_neg hid] at h
      cases h

/-- A vector names no place twice. -/
theorem nodup_cells (v : RatingVector) : (v.cells.map (·.1)).Nodup := by
  have hmap : v.cells.map (·.1) = v.ratings.keys.map (Cell.of v.side v.id) := by
    rw [cells, Table.keys, List.map_map, List.map_map]
    rfl
  rw [hmap]
  exact List.Pairwise.map _ (fun _ _ hne heq => hne (Cell.of_inj.mp heq)) v.ratings.nodup_keys

/-- A vector without ratings is one that names no place. -/
theorem isEmpty_iff (v : RatingVector) : v.ratings.isEmpty = true ↔ ∀ c, v.at? c = none := by
  rw [Table.isEmpty_iff]
  constructor
  · intro h c
    rw [at?, h, ite_self]
  · intro h other
    rw [← at?_of, h]

/-- A vector with ratings is one that names a place. -/
theorem isEmpty_eq_false_iff (v : RatingVector) :
    v.ratings.isEmpty = false ↔ ∃ c, (v.at? c).isSome = true := by
  rw [← Bool.not_eq_true, isEmpty_iff, Classical.not_forall]
  exact exists_congr fun c => Option.isSome_iff_ne_none.symm

end RatingVector

namespace RatingRows

/-- The rating at a place. -/
def at? (t : RatingRows) : RatingMap := fun c => (t.get? c.user).bind (·.ratings.get? c.item)

/-- A row that is set decides the places of its user. -/
theorem at?_insert (t : RatingRows) (user : Int32) (row : RatingVector) (c : Cell) :
    at? (t.insert user row) c = if c.user = user then row.ratings.get? c.item else t.at? c := by
  rw [at?, Table.get?_insert]
  by_cases h : c.user = user
  · rw [if_pos h, if_pos h, Option.bind_some]
  · rw [if_neg h, if_neg h, at?]

/-- A row tells the ratings of its user. -/
theorem at?_of_get? {t : RatingRows} {user : Int32} {row : RatingVector}
    (h : t.get? user = some row) (item : Int32) : t.at? ⟨user, item⟩ = row.ratings.get? item := by
  rw [at?, h, Option.bind_some]

/-- A user without a row has no ratings. -/
theorem at?_of_get?_none {t : RatingRows} {c : Cell} (h : t.get? c.user = none) :
    t.at? c = none := by
  rw [at?, h, Option.bind_none]

/-- A row that is set for a user and differs from the one before in one rating. -/
theorem at?_insert_row {t : RatingRows} {c : Cell} {row : RatingVector} {x : Option Rating}
    (hrow : ∀ item, row.ratings.get? item = if item = c.item then x else t.at? ⟨c.user, item⟩)
    (c' : Cell) : at? (t.insert c.user row) c' = if c' = c then x else t.at? c' := by
  obtain ⟨user, item⟩ := c
  obtain ⟨user', item'⟩ := c'
  rw [at?_insert, hrow]
  dsimp only
  by_cases huser : user' = user
  · subst huser
    by_cases hitem : item' = item
    · rw [if_pos rfl, if_pos hitem, hitem, if_pos rfl]
    · rw [if_pos rfl, if_neg hitem, if_neg fun h => hitem (Cell.mk.inj h).2]
  · rw [if_neg huser, if_neg fun h => huser (Cell.mk.inj h).1]

/-- Putting back the rating of a place changes nothing. -/
theorem ite_at?_self (t : RatingRows) (c c' : Cell) :
    (if c' = c then t.at? c else t.at? c') = t.at? c' := by
  by_cases h : c' = c
  · rw [if_pos h, h]
  · rw [if_neg h]

/-- A change of ratings that looks only at its place: what becomes of the rating
there, and which ratings it finds. -/
structure Pointwise (change : RatingRows → Cell → Rating → Bool × RatingRows)
    (value : Rating → Option Rating → Option Rating) (found : Option Rating → Bool) : Prop where
  /-- The rating at the place is replaced, and no other one. -/
  at?_change : ∀ t c r c', (change t c r).2.at? c' = if c' = c then value r (t.at? c) else t.at? c'
  /-- The answer is about the rating that was at the place. -/
  found_change : ∀ t c r, (change t c r).1 = found (t.at? c)

/-- A rating that is put stands at its place. -/
theorem pointwise_put :
    Pointwise (fun t c r => (true, t.put c r)) (fun r _ => some r) (fun _ => true) where
  found_change _ _ _ := rfl
  at?_change t c r c' := by
    refine at?_insert_row (fun item => ?_) c'
    rw [RatingVector.put, Table.get?_insert]
    cases hrow : t.get? c.user with
    | none =>
      have hnone : t.at? ⟨c.user, item⟩ = none := at?_of_get?_none hrow
      rw [hnone]
      rfl
    | some row =>
      rw [at?_of_get? hrow]
      rfl

/-- A rating is replaced if there is one. -/
theorem pointwise_replace :
    Pointwise replace (fun r old => old.map fun _ => r) Option.isSome where
  found_change t c r := by
    rw [replace]
    cases hrow : t.get? c.user with
    | none => rw [at?_of_get?_none hrow, Option.isSome_none]
    | some row =>
      rw [at?_of_get? hrow, ← Table.contains]
      dsimp only
      split
      · rename_i h
        exact h.symm
      · rename_i h
        exact (Bool.not_eq_true _ ▸ h).symm
  at?_change t c r c' := by
    rw [replace]
    cases hrow : t.get? c.user with
    | none =>
      have hnone : t.at? c = none := at?_of_get?_none hrow
      rw [hnone, Option.map_none, ← hnone, ite_at?_self]
    | some row =>
      dsimp only
      split
      · rename_i hrated
        obtain ⟨old, hold⟩ := Option.isSome_iff_exists.mp hrated
        refine at?_insert_row (fun item => ?_) c'
        rw [RatingVector.put, Table.get?_insert, at?_of_get? hrow, at?_of_get? hrow, hold,
          Option.map_some]
      · rename_i hrated
        have hnone : t.at? c = none := by
          rw [at?_of_get? hrow]
          exact Option.not_isSome_iff_eq_none.mp hrated
        rw [hnone, Option.map_none, ← hnone, ite_at?_self]

/-- A rating is removed if there is one. -/
theorem pointwise_remove :
    Pointwise (fun t c _ => t.remove c) (fun _ _ => none) Option.isSome where
  found_change t c r := by
    rw [remove]
    cases hrow : t.get? c.user with
    | none => rw [at?_of_get?_none hrow, Option.isSome_none]
    | some row =>
      rw [at?_of_get? hrow]
      rfl
  at?_change t c r c' := by
    rw [remove]
    cases hrow : t.get? c.user with
    | none =>
      have hnone : t.at? c = none := at?_of_get?_none hrow
      rw [← hnone, ite_at?_self]
    | some row =>
      refine at?_insert_row (fun item => ?_) c'
      dsimp only
      rw [Table.get?_erase, at?_of_get? hrow]

section ForEach

variable {change : RatingRows → Cell → Rating → Bool × RatingRows}
  {value : Rating → Option Rating → Option Rating} {found : Option Rating → Bool}

/-- Changes at distinct places find what was there before any of them. -/
private theorem found_foldl (h : Pointwise change value found) {l : List (Cell × Rating)}
    (hdistinct : (l.map (·.1)).Nodup) (done : Bool × RatingRows) :
    (l.foldl (also change) done).1 = true ↔
      done.1 = true ∨ ∃ e ∈ l, found (done.2.at? e.1) = true := by
  induction l generalizing done with
  | nil => simp only [List.foldl_nil, List.not_mem_nil, false_and, exists_false, or_false]
  | cons e l ih =>
    rw [List.map_cons, List.nodup_cons] at hdistinct
    have hfirst : (also change done e).1 = true ↔ done.1 = true ∨ found (done.2.at? e.1) = true := by
      rw [← h.found_change done.2 e.1 e.2]
      exact Bool.or_eq_true_iff
    have hrest : ∀ e' ∈ l, (also change done e).2.at? e'.1 = done.2.at? e'.1 := fun e' he' => by
      refine (h.at?_change done.2 e.1 e.2 e'.1).trans (if_neg fun heq => ?_)
      exact hdistinct.1 (heq ▸ List.mem_map_of_mem he')
    rw [List.foldl_cons, ih hdistinct.2, hfirst, or_assoc]
    constructor
    · rintro (hdone | hfound | ⟨e', he', hfound⟩)
      · exact .inl hdone
      · exact .inr ⟨e, List.mem_cons_self, hfound⟩
      · exact .inr ⟨e', List.mem_cons_of_mem _ he', hrest e' he' ▸ hfound⟩
    · rintro (hdone | ⟨e', he', hfound⟩)
      · exact .inl hdone
      · rcases List.mem_cons.mp he' with rfl | he'
        · exact .inr (.inl hfound)
        · exact .inr (.inr ⟨e', he', (hrest e' he').symm ▸ hfound⟩)

/-- Changes at places that do not include a given one leave its rating. -/
private theorem at?_foldl_of_not_mem (h : Pointwise change value found)
    {l : List (Cell × Rating)} {c : Cell} (hmem : c ∉ l.map (·.1)) (done : Bool × RatingRows) :
    (l.foldl (also change) done).2.at? c = done.2.at? c := by
  induction l generalizing done with
  | nil => rfl
  | cons e l ih =>
    rw [List.map_cons, List.mem_cons, not_or] at hmem
    rw [List.foldl_cons, ih hmem.2]
    exact (h.at?_change done.2 e.1 e.2 c).trans (if_neg hmem.1)

/-- Changes at distinct places replace the rating of each. -/
private theorem at?_foldl_of_mem (h : Pointwise change value found)
    {l : List (Cell × Rating)} (hdistinct : (l.map (·.1)).Nodup) {c : Cell} {r : Rating}
    (hmem : (c, r) ∈ l) (done : Bool × RatingRows) :
    (l.foldl (also change) done).2.at? c = value r (done.2.at? c) := by
  induction l generalizing done with
  | nil => cases hmem
  | cons e l ih =>
    rw [List.map_cons, List.nodup_cons] at hdistinct
    rw [List.foldl_cons]
    rcases List.mem_cons.mp hmem with rfl | hrest
    · rw [at?_foldl_of_not_mem h hdistinct.1]
      exact (h.at?_change done.2 c r c).trans (if_pos rfl)
    · have hne : c ≠ e.1 := fun heq => hdistinct.1 (heq ▸ List.mem_map_of_mem hrest)
      have hkept : (also change done e).2.at? c = done.2.at? c :=
        (h.at?_change done.2 e.1 e.2 c).trans (if_neg hne)
      rw [ih hdistinct.2 hrest, hkept]

/-- A change for each rating of a vector replaces the rating at every place that the
vector names, and no other one. -/
theorem at?_forEach (h : Pointwise change value found) (t : RatingRows) (v : RatingVector)
    (c : Cell) :
    (t.forEach change v).2.at? c =
      match v.at? c with
      | none => t.at? c
      | some r => value r (t.at? c) := by
  cases hc : v.at? c with
  | none =>
    refine at?_foldl_of_not_mem h (fun hmem => ?_) (false, t)
    obtain ⟨⟨c', r⟩, he, rfl⟩ := List.mem_map.mp hmem
    rw [RatingVector.mem_cells_iff.mp he] at hc
    cases hc
  | some r =>
    exact at?_foldl_of_mem h v.nodup_cells (RatingVector.mem_cells_iff.mpr hc) (false, t)

/-- A change for each rating of a vector finds something exactly if it does so at a
place that the vector names. -/
theorem found_forEach (h : Pointwise change value found) (t : RatingRows) (v : RatingVector) :
    (t.forEach change v).1 = true ↔
      ∃ c, (v.at? c).isSome = true ∧ found (t.at? c) = true := by
  rw [forEach, found_foldl h v.nodup_cells]
  constructor
  · rintro (hfalse | ⟨⟨c, r⟩, he, hfound⟩)
    · cases hfalse
    · exact ⟨c, by rw [RatingVector.mem_cells_iff.mp he, Option.isSome_some], hfound⟩
  · rintro ⟨c, hsome, hfound⟩
    obtain ⟨r, hr⟩ := Option.isSome_iff_exists.mp hsome
    exact .inr ⟨(c, r), RatingVector.mem_cells_iff.mpr hr, hfound⟩

/-- What every change keeps, a change for each rating of a vector keeps. -/
theorem forEach_induction {I : RatingRows → Prop}
    (hchange : ∀ t c r, I t → I (change t c r).2) {t : RatingRows} (ht : I t)
    (v : RatingVector) : I (t.forEach change v).2 := by
  have hfold : ∀ (l : List (Cell × Rating)) (done : Bool × RatingRows), I done.2 →
      I (l.foldl (also change) done).2 := by
    intro l
    induction l with
    | nil => exact fun _ h => h
    | cons e l ih => exact fun done h => ih _ (hchange done.2 e.1 e.2 h)
  exact hfold v.cells (false, t) ht

end ForEach

end RatingRows

end RatingServer
