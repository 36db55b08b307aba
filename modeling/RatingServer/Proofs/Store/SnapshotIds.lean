import RatingServer.Proofs.Store.Ratings
import Mathlib.Data.List.Sort

/-!
# The identifiers in a copy of the data

A copy of all data names users and items, as do the queries for the identifiers of a
store. For items both say the same: those with a rating or a profile. For users the copy
names only those with a rating, so that a user who has nothing but a profile is missing.
-/

namespace RatingServer

namespace Store

/-- The rows of a query are determined by its answer. -/
theorem Lists.unique {α : Type} {s : Store} {r : Except CallError (Option (RowCursor α)) × Store}
    {rows rows' : List α} (h : s.Lists r rows) (h' : s.Lists r rows') : rows = rows' := by
  by_cases hrows : rows = []
  · by_cases hrows' : rows' = []
    · rw [hrows, hrows']
    · have hanswers := (h.absent hrows).symm.trans (h'.present hrows')
      cases hanswers
  · by_cases hrows' : rows' = []
    · have hanswers := (h.present hrows).symm.trans (h'.absent hrows')
      cases hanswers
    · have hanswers := (h.present hrows).symm.trans (h'.present hrows')
      injection hanswers with hsome
      injection hsome with hcursor
      exact congrArg RowCursor.rows hcursor

/-- The items of a copy are those with a rating or a profile. -/
theorem Reachable.snapshot_itemIds {s : Store} (h : s.Reachable) :
    s.snapshot.itemIds = s.data.ids .item := by
  have hprofiles := h.sound.map_id_rows Side.item.name
  rw [Snapshot.itemIds, snapshot, hprofiles]
  rfl

/-- The users of a copy are those with a rating. -/
theorem Reachable.snapshot_userIds {s : Store} (h : s.Reachable) :
    s.snapshot.userIds = s.data.ratedIds .user := h.sound.map_id_vectors

/-- The identifiers that a copy of the data of a store names. -/
structure NamesIds (s : Store) (copy : Snapshot) : Prop where
  /-- The items are the rows of the query for items. -/
  items : s.Lists (perform (.ids .item) s) copy.itemIds
  /-- The users stand in ascending order, each once. -/
  users_ascending : copy.userIds.Pairwise (· < ·)
  /-- The users are those with a rating. -/
  mem_users_iff : ∀ id, id ∈ copy.userIds ↔ s.ratingMap.Rates .user id
  /-- The rows of the query for users are these and the users with a profile. -/
  users_known : ∃ rows, s.Lists (perform (.ids .user) s) rows ∧
    ∀ id, id ∈ rows ↔ id ∈ copy.userIds ∨ ∃ p ∈ copy.userProfiles, p.id = id
  /-- The users are the rows of the query for users exactly if every user with a profile
  has a rating. -/
  users_iff : s.Lists (perform (.ids .user) s) copy.userIds ↔
    ∀ p ∈ copy.userProfiles, s.ratingMap.Rates .user p.id

/-- A copy of the data of a store names its items, and its users with a rating. -/
theorem Reachable.snapshot_names_ids {s : Store} (h : s.Reachable) :
    ∃ copy, perform .snapshot s = (.ok (some copy), s) ∧ s.NamesIds copy := by
  have hascending : s.snapshot.userIds.Pairwise (· < ·) :=
    List.pairwise_map.mpr (h.sound.pairwise_vectors .user)
  have hmem : ∀ id, id ∈ s.snapshot.userIds ↔ s.ratingMap.Rates .user id := fun id => by
    rw [h.snapshot_userIds]
    exact h.sound.mem_ratedIds_iff .user id
  have hknown : ∀ id, id ∈ s.data.ids .user ↔
      id ∈ s.snapshot.userIds ∨ ∃ p ∈ s.snapshot.userProfiles, p.id = id := fun id => by
    rw [hmem]
    exact h.sound.mem_ids_iff .user id
  have hlists : s.Lists (perform (.ids .user) s) (s.data.ids .user) := s.lists_cursor _
  refine ⟨s.snapshot, rfl, ?_, hascending, hmem, ⟨_, hlists, hknown⟩, ?_⟩
  · rw [h.snapshot_itemIds]
    exact s.lists_cursor _
  · constructor
    · intro hrows p hp
      have hall : s.snapshot.userIds = s.data.ids .user := hrows.unique hlists
      rw [← hmem, hall, hknown]
      exact .inr ⟨p, hp, rfl⟩
    · intro hrated
      have hall : s.snapshot.userIds = s.data.ids .user :=
        hascending.eq_of_mem_iff (s.data.pairwise_ids .user) fun id => by
          rw [hknown, iff_self_or]
          rintro ⟨p, hp, rfl⟩
          exact (hmem p.id).mpr (hrated p hp)
      rw [hall]
      exact hlists

/-- A store with a rating by one user, a profile of another and one of another item. -/
def profiledSample : Store :=
  (Store.of .default .empty []).performAll
    [.insertRatings ⟨1, .user, .ofList [(10, { value := 3.0 })]⟩,
      .insertProfile .user ⟨2, .empty⟩ none,
      .insertProfile .item ⟨11, .empty⟩ none]

/-- The identifiers that a copy names of a store with a rating and profiles. -/
theorem Reachable.snapshot_names_ids_profiled :
    profiledSample.Reachable ∧
      (∃ copy, perform .snapshot profiledSample = (.ok (some copy), profiledSample) ∧
        profiledSample.NamesIds copy) ∧
      profiledSample.snapshot.itemIds = [10, 11] := by
  have h : profiledSample.Reachable := Reachable.performAll (.new _ _ _) _
  exact ⟨h, h.snapshot_names_ids, by decide +kernel⟩

/-- A user who has nothing but a profile is a row of the query for users, but is missing in
the copy. -/
theorem profiledSample_user_missing :
    profiledSample.Reachable ∧
      (perform (.ids .user) profiledSample).1 = .ok (some (.of [1, 2])) ∧
      (perform .snapshot profiledSample).1 = .ok (some profiledSample.snapshot) ∧
      profiledSample.snapshot.userIds = [1] := by
  have hrows : profiledSample.data.ids .user = [1, 2] := by decide +kernel
  refine ⟨Reachable.performAll (.new _ _ _) _, ?_, rfl, by decide +kernel⟩
  rw [perform, hrows]
  rfl

end Store

end RatingServer
