import RatingServer.Proofs.Store.Ratings
import RatingServer.Proofs.Table.Lookup

/-!
# Writes of ratings that do not meet

A write of ratings looks at the places that its vector names and at no others. So two
writes that name different places commute, even where they share the row of a user that
one of them empties and the other fills again. For clients whose writes name different
places it does not matter how their requests are interleaved: the store ends up the
same, and each client is answered as if it were alone.
-/

namespace RatingServer

/-- A write of ratings, with the vector that it is made with. -/
inductive RatingWrite where
  /-- Ratings are inserted. -/
  | insert (ratings : RatingVector)
  /-- Ratings that are there are replaced. -/
  | update (ratings : RatingVector)
  /-- Ratings are deleted. -/
  | delete (ratings : RatingVector)
  deriving DecidableEq

namespace RatingWrite

/-- The vector of a write. -/
def ratings : RatingWrite → RatingVector
  | insert v | update v | delete v => v

/-- The ratings that a write leaves. -/
def after : RatingWrite → RatingMap → RatingMap
  | insert v, m => m.overwrite v
  | update v, m => m.revise v
  | delete v, m => m.without v

/-- What a write looks for: a rating to insert, or one that is there. -/
def Finds : RatingWrite → RatingMap → Prop
  | insert v, _ => v.ratings.isEmpty = false
  | update v, m | delete v, m => ∃ c, (v.at? c).isSome = true ∧ (m c).isSome = true

/-- The places that a write names. -/
def places (w : RatingWrite) : List Cell := w.ratings.cells.map (·.1)

/-- Two writes name different places. -/
def Apart (x y : RatingWrite) : Prop := ∀ c ∈ x.places, c ∉ y.places

instance (x y : RatingWrite) : Decidable (x.Apart y) :=
  inferInstanceAs (Decidable (∀ c ∈ x.places, c ∉ y.places))

/-- It does not matter which of two writes is named first. -/
theorem Apart.symm {x y : RatingWrite} (h : x.Apart y) : y.Apart x :=
  fun c hy hx => h c hx hy

/-- A write names the places at which its vector has a rating. -/
theorem mem_places_iff {w : RatingWrite} {c : Cell} :
    c ∈ w.places ↔ (w.ratings.at? c).isSome = true := by
  rw [places, Option.isSome_iff_exists, List.mem_map]
  constructor
  · rintro ⟨⟨c, r⟩, he, rfl⟩
    exact ⟨r, RatingVector.mem_cells_iff.mp he⟩
  · rintro ⟨r, hr⟩
    exact ⟨(c, r), RatingVector.mem_cells_iff.mpr hr, rfl⟩

/-- A write leaves the ratings of places that it does not name. -/
theorem after_of_not_mem {w : RatingWrite} {c : Cell} (h : c ∉ w.places) (m : RatingMap) :
    w.after m c = m c := by
  have hnone : w.ratings.at? c = none := by
    rwa [mem_places_iff, Option.not_isSome_iff_eq_none] at h
  cases w with
  | insert v =>
    change v.at? c = none at hnone
    rw [after, RatingMap.overwrite, hnone, Option.none_or]
  | update v =>
    change v.at? c = none at hnone
    rw [after, RatingMap.revise, hnone, Option.none_or]
    cases m c <;> rfl
  | delete v =>
    change v.at? c = none at hnone
    rw [after, RatingMap.without, hnone]
    rfl

/-- What a write leaves at a place depends on what was there, and on nothing else. -/
theorem after_congr (w : RatingWrite) {m m' : RatingMap} {c : Cell} (h : m c = m' c) :
    w.after m c = w.after m' c := by
  cases w with
  | insert v => rw [after, after, RatingMap.overwrite, RatingMap.overwrite, h]
  | update v => rw [after, after, RatingMap.revise, RatingMap.revise, h]
  | delete v => rw [after, after, RatingMap.without, RatingMap.without, h]

/-- What a write finds depends on the places that it names. -/
theorem finds_congr {w : RatingWrite} {m m' : RatingMap} (h : ∀ c ∈ w.places, m c = m' c) :
    w.Finds m ↔ w.Finds m' := by
  cases w with
  | insert v => exact Iff.rfl
  | update v =>
    refine exists_congr fun c => and_congr_right fun hc => ?_
    rw [h c (mem_places_iff.mpr hc)]
  | delete v =>
    refine exists_congr fun c => and_congr_right fun hc => ?_
    rw [h c (mem_places_iff.mpr hc)]

/-- Writes that name different places leave the same ratings in either order. -/
theorem Apart.after_comm {x y : RatingWrite} (h : x.Apart y) (m : RatingMap) :
    y.after (x.after m) = x.after (y.after m) := by
  funext c
  by_cases hx : c ∈ x.places
  · have hy := h c hx
    rw [after_of_not_mem hy, x.after_congr (after_of_not_mem hy m)]
  · rw [after_of_not_mem hx, y.after_congr (after_of_not_mem hx m)]

/-- A write finds the same before and after one that names other places. -/
theorem Apart.finds_after {x y : RatingWrite} (h : x.Apart y) (m : RatingMap) :
    y.Finds (x.after m) ↔ y.Finds m :=
  finds_congr fun c hy => after_of_not_mem (h.symm c hy) m

end RatingWrite

namespace Store

/-- Performs a write of ratings. -/
def write (s : Store) : RatingWrite → Except CallError Bool × Store
  | .insert v => perform (.insertRatings v) s
  | .update v => perform (.updateRatings v) s
  | .delete v => perform (.deleteRatings v) s

/-- A store that can be reached stays one after a write. -/
theorem Reachable.write {s : Store} (h : s.Reachable) (w : RatingWrite) :
    (s.write w).2.Reachable := by
  cases w with
  | insert v => exact .performed (.insertRatings v) h
  | update v => exact .performed (.updateRatings v) h
  | delete v => exact .performed (.deleteRatings v) h

/-- What a write answers and leaves is told by the map of the ratings. -/
theorem writes_write (s : Store) (w : RatingWrite) :
    s.Writes (s.write w) (w.Finds s.ratingMap) (w.after s.ratingMap) := by
  cases w with
  | insert v => exact s.writes_insertRatings v
  | update v => exact s.writes_updateRatings v
  | delete v => exact s.writes_deleteRatings v

/-- Stores whose ratings are the same map, and which agree in all else, are the same. -/
theorem Reachable.eq_of_ratingMap {s t : Store} (hs : s.Reachable) (ht : t.Reachable)
    (hmap : s.ratingMap = t.ratingMap)
    (hframe : s = { t with data := { t.data with ratings := s.data.ratings } }) : s = t := by
  have hrows : s.data.ratings = t.data.ratings :=
    RatingRows.ext_at? hs.sound.rows ht.sound.rows hmap
  rw [hframe, hrows]

/-- Writes of which each finds the same give the same answer. -/
theorem Writes.answer_eq {s t : Store} {r r' : Except CallError Bool × Store} {found found' : Prop}
    {after after' : RatingMap} (h : s.Writes r found after) (h' : t.Writes r' found' after')
    (hfound : found ↔ found') : r.1 = r'.1 := by
  obtain ⟨b, hb, hiff⟩ := h.answered
  obtain ⟨b', hb', hiff'⟩ := h'.answered
  rw [hb, hb', Except.ok.injEq]
  exact Bool.eq_iff_iff.mpr (hiff.trans (hfound.trans hiff'.symm))

/-- Writes that name different places leave the same store in either order. -/
theorem Reachable.write_comm {s : Store} (h : s.Reachable) {x y : RatingWrite} (hxy : x.Apart y) :
    ((s.write x).2.write y).2 = ((s.write y).2.write x).2 := by
  have hx := s.writes_write x
  have hy := s.writes_write y
  have hxy' := (s.write x).2.writes_write y
  have hyx := (s.write y).2.writes_write x
  refine ((h.write x).write y).eq_of_ratingMap ((h.write y).write x) ?_ ?_
  · rw [hxy'.rated, hyx.rated, hx.rated, hy.rated, hxy.after_comm]
  · rw [hxy'.frame, hyx.frame, hx.frame, hy.frame]

/-- A write answers the same before and after one that names other places. -/
theorem write_answer (s : Store) {x y : RatingWrite} (hxy : x.Apart y) :
    ((s.write x).2.write y).1 = (s.write y).1 := by
  have hx := s.writes_write x
  refine ((s.write x).2.writes_write y).answer_eq (s.writes_write y) ?_
  rw [hx.rated]
  exact hxy.finds_after s.ratingMap

section Serving

variable {κ : Type} [DecidableEq κ]

/-- Performs the writes of clients one after another, and gives each its answer. -/
def serve (s : Store) : List (κ × RatingWrite) → List (κ × Except CallError Bool) × Store
  | [] => ([], s)
  | (k, w) :: l =>
    let rest := serve (s.write w).2 l
    ((k, (s.write w).1) :: rest.1, rest.2)

/-- Two runs end in the same store and give each client the same answers. -/
structure SameRun (r r' : List (κ × Except CallError Bool) × Store) : Prop where
  /-- The stores are the same. -/
  store_eq : r.2 = r'.2
  /-- Each client is given the same answers, in the same order. -/
  answers_eq : ∀ k, valuesUnder k r.1 = valuesUnder k r'.1

/-- Runs that are the same as one another stay so through a third. -/
theorem SameRun.trans {r r' r'' : List (κ × Except CallError Bool) × Store} (h : SameRun r r')
    (h' : SameRun r' r'') : SameRun r r'' :=
  ⟨h.store_eq.trans h'.store_eq, fun k => (h.answers_eq k).trans (h'.answers_eq k)⟩

/-- Runs are the same whichever is named first. -/
theorem SameRun.symm {r r' : List (κ × Except CallError Bool) × Store} (h : SameRun r r') :
    SameRun r' r :=
  ⟨h.store_eq.symm, fun k => (h.answers_eq k).symm⟩

/-- Different clients name different places. -/
def Separate (l : List (κ × RatingWrite)) : Prop :=
  ∀ e ∈ l, ∀ f ∈ l, e.1 ≠ f.1 → e.2.Apart f.2

/-- Runs that are the same after one write are the same with it. -/
theorem SameRun.cons {s : Store} {k : κ} {w : RatingWrite} {l l' : List (κ × RatingWrite)}
    (h : SameRun ((s.write w).2.serve l) ((s.write w).2.serve l')) :
    SameRun (s.serve ((k, w) :: l)) (s.serve ((k, w) :: l')) where
  store_eq := h.store_eq
  answers_eq j := by
    simp only [serve]
    by_cases hj : k = j
    · subst hj
      rw [valuesUnder_cons_self, valuesUnder_cons_self, h.answers_eq]
    · rw [valuesUnder_cons_of_ne hj, valuesUnder_cons_of_ne hj, h.answers_eq]

/-- Two writes of different clients that name different places may be swapped. -/
theorem Reachable.sameRun_swap {s : Store} (h : s.Reachable) {j k : κ} {x w : RatingWrite}
    (hne : j ≠ k) (hxw : x.Apart w) (l : List (κ × RatingWrite)) :
    SameRun (s.serve ((j, x) :: (k, w) :: l)) (s.serve ((k, w) :: (j, x) :: l)) := by
  have hstore := h.write_comm hxw
  have hw := s.write_answer hxw
  have hx := s.write_answer hxw.symm
  refine ⟨by simp only [serve, hstore], fun i => ?_⟩
  simp only [serve, hstore, hw, hx]
  by_cases hj : j = i
  · subst hj
    rw [valuesUnder_cons_self, valuesUnder_cons_of_ne hne.symm, valuesUnder_cons_of_ne hne.symm,
      valuesUnder_cons_self]
  · rw [valuesUnder_cons_of_ne hj]
    by_cases hk : k = i
    · subst hk
      rw [valuesUnder_cons_self, valuesUnder_cons_self, valuesUnder_cons_of_ne hj]
    · rw [valuesUnder_cons_of_ne hk, valuesUnder_cons_of_ne hk, valuesUnder_cons_of_ne hj]

/-- A write of a client may be made before those of others that name other places. -/
theorem Reachable.sameRun_front {s : Store} (h : s.Reachable) {k : κ} {w : RatingWrite}
    {before : List (κ × RatingWrite)} (hbefore : ∀ e ∈ before, e.1 ≠ k ∧ e.2.Apart w)
    (after : List (κ × RatingWrite)) :
    SameRun (s.serve (before ++ (k, w) :: after)) (s.serve ((k, w) :: (before ++ after))) := by
  induction before generalizing s with
  | nil => exact ⟨rfl, fun _ => rfl⟩
  | cons e before ih =>
    obtain ⟨j, x⟩ := e
    obtain ⟨⟨hne, hxw⟩, hrest⟩ := List.forall_mem_cons.mp hbefore
    have hfront := ih (h.write x) hrest
    have hswap := h.sameRun_swap hne hxw (before ++ after)
    exact hfront.cons.trans hswap

/-- Requests that are the same for each client lead to the same run, if different
clients name different places. -/
theorem Reachable.sameRun {s : Store} (h : s.Reachable) {l l' : List (κ × RatingWrite)}
    (hsep : Separate l) (hsame : ∀ k, valuesUnder k l = valuesUnder k l') :
    SameRun (s.serve l) (s.serve l') := by
  -- The first request of the one list is moved to the front of the other.
  induction l generalizing s l' with
  | nil =>
    cases l' with
    | nil => exact ⟨rfl, fun _ => rfl⟩
    | cons e l' =>
      have hnil := hsame e.1
      rw [valuesUnder_cons_self] at hnil
      cases hnil
  | cons e l ih =>
    obtain ⟨k, w⟩ := e
    have hfirst := hsame k
    rw [valuesUnder_cons_self] at hfirst
    obtain ⟨before, after, rfl, hbefore⟩ := valuesUnder_eq_cons hfirst.symm
    have hothers : ∀ e ∈ before, e.1 ≠ k ∧ e.2.Apart w := fun e he => by
      refine ⟨hbefore e he, hsep e ?_ (k, w) List.mem_cons_self (hbefore e he)⟩
      have hmem : e.2 ∈ valuesUnder e.1 (before ++ (k, w) :: after) :=
        mem_valuesUnder.mpr (List.mem_append_left _ he)
      rw [← hsame e.1] at hmem
      exact mem_valuesUnder.mp hmem
    have hrest : ∀ j, valuesUnder j l = valuesUnder j (before ++ after) := fun j => by
      have hj := hsame j
      rw [valuesUnder_append] at hj ⊢
      by_cases hjk : k = j
      · subst hjk
        have hnone : valuesUnder k before = [] := by
          rw [List.eq_nil_iff_forall_not_mem]
          exact fun a ha => hbefore _ (mem_valuesUnder.mp ha) rfl
        rw [valuesUnder_cons_self, valuesUnder_cons_self, hnone, List.nil_append] at hj
        rw [hnone, List.nil_append]
        exact List.tail_eq_of_cons_eq hj
      · rw [valuesUnder_cons_of_ne hjk, valuesUnder_cons_of_ne hjk] at hj
        exact hj
    have hsep' : Separate l := fun e he f hf =>
      hsep e (List.mem_cons_of_mem _ he) f (List.mem_cons_of_mem _ hf)
    have hrun := ih (h.write w) hsep' hrest
    have hfront := h.sameRun_front hothers after
    exact hrun.cons.trans hfront.symm

end Serving

/-- Writes of ratings that name different places do not depend on one another. -/
structure IndependentWrites (s : Store) : Prop where
  /-- Two of them leave the same store in either order. -/
  store_comm : ∀ {x y : RatingWrite}, x.Apart y →
    ((s.write x).2.write y).2 = ((s.write y).2.write x).2
  /-- Each answers the same, whether it is made first or second. -/
  answer_comm : ∀ {x y : RatingWrite}, x.Apart y →
    ((s.write x).2.write y).1 = (s.write y).1 ∧ ((s.write y).2.write x).1 = (s.write x).1
  /-- However the requests of clients are interleaved, they end in the same store and give
  each client the same answers. -/
  interleaved : ∀ {κ : Type} [DecidableEq κ] {l l' : List (κ × RatingWrite)}, Separate l →
    (∀ k, valuesUnder k l = valuesUnder k l') → SameRun (s.serve l) (s.serve l')

/-- In every store that can be reached, writes of ratings that name different places do
not depend on one another. -/
theorem Reachable.independentWrites {s : Store} (h : s.Reachable) : s.IndependentWrites where
  store_comm hxy := h.write_comm hxy
  answer_comm hxy := ⟨s.write_answer hxy, s.write_answer hxy.symm⟩
  interleaved hsep hsame := h.sameRun hsep hsame

/-- One client deletes the only rating of a user and rates again, another rates another
item of the same user and revises it. -/
def rowWrites : Bool → List RatingWrite
  | true =>
    let v : RatingVector := ⟨2, .user, .ofList [(13, { value := 1.0 })]⟩
    [.delete v, .insert v]
  | false =>
    let v : RatingVector := ⟨7, .item, .ofList [(2, { value := 3.0 })]⟩
    [.insert v, .update v]

/-- The writes of two clients to one row, in turn and by client: the row passes through
empty in the one run and not in the other, and the runs are the same. -/
theorem Reachable.independentWrites_sample :
    let pairs := (rowWrites false).zip (rowWrites true)
    let inTurn := pairs.flatMap fun (x, y) => [(false, x), (true, y)]
    let byClient := [true, false].flatMap fun k => (rowWrites k).map (k, ·)
    ratedSample.Reachable ∧ Separate byClient ∧
      SameRun (ratedSample.serve byClient) (ratedSample.serve inTurn) := by
  intro pairs inTurn byClient
  have h : ratedSample.Reachable := .performed _ (.performed _ (.new _ _ _))
  have hsep : Separate byClient := by
    unfold Separate
    decide +kernel
  have hsame : ∀ k, valuesUnder k byClient = valuesUnder k inTurn := fun k => by cases k <;> rfl
  exact ⟨h, hsep, h.independentWrites.interleaved hsep hsame⟩

end Store

end RatingServer
