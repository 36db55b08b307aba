import RatingServer.Proofs.Store.Replay
import Mathlib.Data.List.Nodup

/-!
# Ratings by user and by item

The ratings of a store are listed as vectors of users or as vectors of items. Both lists
name the same ratings at the same places, each of them once, as a table and its transpose
do. So from the vectors of either list, inserted in any order, the ratings are rebuilt:
what a vector puts at a place is what any other would put there.
-/

namespace RatingServer

namespace RatingVector

/-- The ratings that some vectors name, with their places. -/
def allCells (rows : List RatingVector) : List (Cell × Rating) := rows.flatMap cells

/-- A rating is named by some vectors exactly if one of them has it. -/
theorem mem_allCells_iff {rows : List RatingVector} {c : Cell} {r : Rating} :
    (c, r) ∈ allCells rows ↔ ∃ v ∈ rows, v.at? c = some r := by
  rw [allCells, List.mem_flatMap]
  exact exists_congr fun v => and_congr_right fun _ => mem_cells_iff

/-- A vector names places of its own user or item. -/
theorem along_of_mem_cells {v : RatingVector} {e : Cell × Rating} (h : e ∈ v.cells) :
    e.1.along v.side = v.id := by
  obtain ⟨⟨other, r⟩, -, rfl⟩ := List.mem_map.mp h
  exact Cell.along_of v.side v.id other

/-- Vectors of different users, or of different items, name no place twice. -/
theorem nodup_allCells {side : Side} {rows : List RatingVector}
    (hside : ∀ v ∈ rows, v.side = side) (hid : rows.Pairwise fun v w => v.id ≠ w.id) :
    ((allCells rows).map (·.1)).Nodup := by
  rw [allCells, List.map_flatMap, List.nodup_flatMap]
  refine ⟨fun v _ => v.nodup_cells, ?_⟩
  refine hid.imp_of_mem fun {v w} hv hw hne => List.disjoint_left.mpr fun c hcv hcw => ?_
  obtain ⟨e, he, rfl⟩ := List.mem_map.mp hcv
  obtain ⟨f, hf, heq⟩ := List.mem_map.mp hcw
  have hve := along_of_mem_cells he
  have hwf := along_of_mem_cells hf
  rw [hside v hv] at hve
  rw [hside w hw, heq] at hwf
  exact hne (hve.symm.trans hwf)

end RatingVector

namespace RatingRows

/-- Vectors that name ratings of one map put these, whatever their order: at every place
that one of them names the rating of the map stands, and all else is as it was. -/
theorem at?_foldl_putAll {m : RatingMap} {vs : List RatingVector}
    (hm : ∀ v ∈ vs, ∀ c r, v.at? c = some r → m c = some r) (t : RatingRows) (c : Cell) :
    (vs.foldl putAll t).at? c =
      if ∃ v ∈ vs, (v.at? c).isSome = true then m c else t.at? c := by
  induction vs generalizing t with
  | nil => simp
  | cons v vs ih =>
    obtain ⟨hv, hvs⟩ := List.forall_mem_cons.mp hm
    rw [List.foldl_cons, ih hvs, at?_putAll, RatingMap.overwrite]
    by_cases hlater : ∃ w ∈ vs, (w.at? c).isSome = true
    · obtain ⟨w, hw, hrated⟩ := hlater
      rw [if_pos ⟨w, hw, hrated⟩, if_pos ⟨w, List.mem_cons_of_mem v hw, hrated⟩]
    · rw [if_neg hlater]
      cases hc : v.at? c with
      | some r =>
        have hnamed : (v.at? c).isSome = true := Option.isSome_of_eq_some hc
        rw [if_pos ⟨v, List.mem_cons_self, hnamed⟩, Option.some_or, hv c r hc]
      | none =>
        rw [Option.none_or, if_neg]
        rintro ⟨w, hw, hrated⟩
        rcases List.mem_cons.mp hw with rfl | hw
        · rw [hc] at hrated
          cases hrated
        · exact hlater ⟨w, hw, hrated⟩

/-- Vectors that name the ratings of some rows and no others put these rows, whatever
their order, where there were none. -/
theorem foldl_putAll_eq {t : RatingRows} (ht : t.Each Kept) {vs : List RatingVector}
    (hvs : ∀ c r, (∃ v ∈ vs, v.at? c = some r) ↔ t.at? c = some r) :
    vs.foldl putAll .empty = t := by
  refine ext_at? (each_foldl_putAll .empty vs) ht (funext fun c => ?_)
  have hnamed : (∃ v ∈ vs, (v.at? c).isSome = true) ↔ (t.at? c).isSome = true := by
    simp only [Option.isSome_iff_exists, ← hvs c]
    exact ⟨fun ⟨v, hv, r, hr⟩ => ⟨r, v, hv, hr⟩, fun ⟨r, v, hv, hr⟩ => ⟨v, hv, r, hr⟩⟩
  rw [at?_foldl_putAll fun v hv c r hr => (hvs c r).mp ⟨v, hv, hr⟩]
  cases hc : t.at? c with
  | some r => rw [if_pos (hnamed.mpr (Option.isSome_of_eq_some hc))]
  | none =>
    have hnone : ¬(t.at? c).isSome = true := by rw [hc]; exact Bool.false_ne_true
    rw [if_neg fun hsome => hnone (hnamed.mp hsome)]
    rfl

end RatingRows

namespace Dataset.Sound

variable {d : Dataset} (h : d.Sound)
include h

/-- The vectors of all users or items name the ratings that are there. -/
theorem exists_vectors_iff (side : Side) (c : Cell) (r : Rating) :
    (∃ v ∈ d.vectors side, v.at? c = some r) ↔ d.ratings.at? c = some r := by
  constructor
  · rintro ⟨v, hv, hr⟩
    rw [((h.mem_vectors_iff side v).mp hv).2.at?] at hr
    exact (Option.ite_none_right_eq_some.mp hr).2
  · intro hr
    have hrates : RatingMap.Rates d.ratings.at? side (c.along side) :=
      RatingMap.rates_iff.mpr ⟨c, rfl, Option.isSome_of_eq_some hr⟩
    rcases h.vector?_cases side (c.along side) with ⟨v, -, hline, -⟩ | ⟨-, hnot⟩
    · have hid := hline.id_eq
      refine ⟨v, (h.mem_vectors_iff side v).mpr ?_, ?_⟩
      · rw [hid]
        exact ⟨hrates, hline⟩
      · rw [hline.at?, if_pos rfl, hr]
    · exact absurd hrates hnot

/-- The vectors of all users or items name no place twice. -/
theorem nodup_vectors (side : Side) :
    ((RatingVector.allCells (d.vectors side)).map (·.1)).Nodup := by
  have hside : ∀ v ∈ d.vectors side, v.side = side := fun v hv =>
    ((h.mem_vectors_iff side v).mp hv).2.side_eq
  refine RatingVector.nodup_allCells hside ((h.pairwise_vectors side).imp fun {v w} hlt heq => ?_)
  rw [heq] at hlt
  exact Int32.lt_irrefl hlt

/-- No vector that is listed is empty. -/
theorem isEmpty_of_mem_vectors {side : Side} {v : RatingVector} (hv : v ∈ d.vectors side) :
    v.ratings.isEmpty = false := by
  obtain ⟨hrates, hline⟩ := (h.mem_vectors_iff side v).mp hv
  exact hline.rates_iff.mp hrates

end Dataset.Sound

namespace Store

/-- The ratings of a store, listed by user or by item. -/
structure IsView (s : Store) (side : Side) (rows : List RatingVector) : Prop where
  /-- They are the rows of the query for all ratings. -/
  listed : s.Lists (perform (.allRatings side) s) rows
  /-- They are vectors of that side. -/
  side_eq : ∀ v ∈ rows, v.side = side
  /-- No row is empty. -/
  nonempty : ∀ v ∈ rows, v.ratings.isEmpty = false
  /-- The rows name the ratings of the store and no others. -/
  mem_iff : ∀ c r, (c, r) ∈ RatingVector.allCells rows ↔ s.ratingMap c = some r
  /-- They name no place twice, and so no rating. -/
  nodup : ((RatingVector.allCells rows).map (·.1)).Nodup
  /-- Inserted in any order into a store without ratings, they rebuild the ratings, and
  change nothing else. -/
  rebuilds : ∀ {e : Store} {rows' : List RatingVector}, e.data.ratings = .empty →
    rows'.Perm rows →
    e.performAll (rows'.map .insertRatings) = { e with data.ratings := s.data.ratings }

/-- The ratings are rebuilt from the vectors of either side. -/
theorem Reachable.isView {s : Store} (h : s.Reachable) (side : Side) :
    s.IsView side (s.data.vectors side) where
  listed := s.lists_cursor _
  side_eq v hv := ((h.sound.mem_vectors_iff side v).mp hv).2.side_eq
  nonempty _ hv := h.sound.isEmpty_of_mem_vectors hv
  mem_iff c r := RatingVector.mem_allCells_iff.trans (h.sound.exists_vectors_iff side c r)
  nodup := h.sound.nodup_vectors side
  rebuilds {e rows'} hempty hperm := by
    have hrows : rows'.foldl RatingRows.putAll .empty = s.data.ratings :=
      RatingRows.foldl_putAll_eq h.sound.rows fun c r => by
        rw [← h.sound.exists_vectors_iff side c r]
        exact exists_congr fun v => and_congr_left fun _ => hperm.mem_iff
    rw [performAll_insertRatings, hempty, hrows]

/-- In every store that can be reached, the ratings listed by user and those listed by item
are the same, and either list rebuilds them. -/
theorem Reachable.views_transposed {s : Store} (h : s.Reachable) :
    ∃ users items, s.IsView .user users ∧ s.IsView .item items ∧
      (RatingVector.allCells users).Perm (RatingVector.allCells items) := by
  have husers := h.isView .user
  have hitems := h.isView .item
  refine ⟨_, _, husers, hitems, ?_⟩
  rw [List.perm_ext_iff_of_nodup husers.nodup.of_map hitems.nodup.of_map]
  rintro ⟨c, r⟩
  rw [husers.mem_iff, hitems.mem_iff]

/-- Two users rated two items between them, one item both; a third item has nothing but a
profile, and a third user rated nothing any more. -/
def crossedSample : Store :=
  (Store.of .default .empty []).performAll
    [.insertRatings ⟨20, .item, .ofList [(2, { value := 4.5 }), (1, { value := 2.0 })]⟩,
      .insertRatings ⟨2, .user, .ofList [(10, { value := 1.0 })]⟩,
      .insertRatings ⟨3, .user, .ofList [(20, { value := 3.0 })]⟩,
      .deleteRatings ⟨3, .user, .ofList [(20, { value := 0.0 })]⟩,
      .insertProfile .item ⟨15, .empty⟩ none]

/-- The views of a store in which users and items cross. -/
theorem Reachable.views_transposed_crossed :
    crossedSample.Reachable ∧
      (∃ users items, crossedSample.IsView .user users ∧ crossedSample.IsView .item items ∧
        (RatingVector.allCells users).Perm (RatingVector.allCells items)) ∧
      (RatingVector.allCells (crossedSample.data.vectors .user)).map (·.1) =
        [⟨1, 20⟩, ⟨2, 10⟩, ⟨2, 20⟩] ∧
      (RatingVector.allCells (crossedSample.data.vectors .item)).map (·.1) =
        [⟨2, 10⟩, ⟨1, 20⟩, ⟨2, 20⟩] := by
  have h : crossedSample.Reachable := Reachable.performAll (.new _ _ _) _
  exact ⟨h, h.views_transposed, by decide +kernel, by decide +kernel⟩

end Store

end RatingServer
