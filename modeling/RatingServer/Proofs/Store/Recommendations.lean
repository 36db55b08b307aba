import RatingServer.Proofs.Decimal.TotalOrder
import RatingServer.Proofs.Store.Ratings

/-!
# Recommendations

A recommendation is the top of a ranking. Of the items of the store that a user has not
rated, those with an estimate are ranked, the greater estimate first and of equal ones that
of the smaller item, and a limit above zero cuts the ranking off. What is answered is kept
by item, so that the ranking shows only in which items are there.
-/

namespace RatingServer

/-- Ratings that are put into a vector one after another are inserted into its table. -/
theorem RatingVector.foldl_put (l : List (Int32 × Rating)) (v : RatingVector) :
    l.foldl (fun v e => v.put e.1 e.2) v =
      { v with ratings := l.foldl (fun t e => t.insert e.1 e.2) v.ratings } := by
  induction l generalizing v with
  | nil => rfl
  | cons e l ih =>
    rw [List.foldl_cons, ih]
    rfl

/-- No user or item is listed twice. -/
theorem Dataset.nodup_ids (d : Dataset) (side : Side) : (d.ids side).Nodup := Table.nodup_keys _

namespace MeanModel

/-- The estimates of some items, by item. -/
def estimated (m : MeanModel) (u : RatingVector) (items : List Int32) : List (Int32 × Rating) :=
  items.filterMap fun item => (m.estimate? u item).map fun x => (item, { value := x })

/-- An item has an entry exactly if it has an estimate. -/
theorem mem_estimated_iff {m : MeanModel} {u : RatingVector} {items : List Int32} {item : Int32}
    {r : Rating} :
    (item, r) ∈ m.estimated u items ↔
      item ∈ items ∧ ∃ x, m.estimate? u item = some x ∧ r = { value := x } := by
  simp only [estimated, List.mem_filterMap, Option.map_eq_some_iff, Prod.mk.injEq]
  constructor
  · rintro ⟨_, hitem, x, hx, rfl, rfl⟩
    exact ⟨hitem, x, hx, rfl⟩
  · rintro ⟨hitem, x, hx, rfl⟩
    exact ⟨item, hitem, x, hx, rfl, rfl⟩

/-- The items with an entry are those with an estimate. -/
theorem keys_estimated (m : MeanModel) (u : RatingVector) (items : List Int32) :
    (m.estimated u items).map (·.1) = items.filter fun item => (m.estimate? u item).isSome := by
  rw [estimated, List.map_filterMap, ← List.filterMap_eq_filter]
  refine congrArg (List.filterMap · items) (funext fun item => ?_)
  cases h : m.estimate? u item <;> simp [Option.guard, h]

/-- The estimates of some items are kept by item. -/
theorem estimates_eq (m : MeanModel) (u : RatingVector) (items : List Int32) :
    m.estimates u items = ⟨u.id, .user, .ofList (m.estimated u items)⟩ := by
  have hfold : m.estimates u items =
      (m.estimated u items).foldl (fun v e => v.put e.1 e.2) { id := u.id, side := .user } := by
    rw [estimates, estimated, List.foldl_filterMap]
    refine congrArg (List.foldl · _ items) (funext fun v => funext fun item => ?_)
    cases m.estimate? u item with
    | none => rfl
    | some x => rfl
  rw [hfold, RatingVector.foldl_put]
  rfl

/-- The estimates of some items, item by item. -/
theorem get?_estimates (m : MeanModel) (u : RatingVector) {items : List Int32} (h : items.Nodup)
    (item : Int32) : (m.estimates u items).ratings.get? item =
      if item ∈ items then (m.estimate? u item).map ({ value := · }) else none := by
  have hkeys : ((m.estimated u items).map (·.1)).Nodup := by
    rw [keys_estimated]
    exact h.filter _
  rw [estimates_eq]
  refine Option.ext fun r => ?_
  rw [Table.get?_ofList_eq_some_iff hkeys, mem_estimated_iff, Option.ite_none_right_eq_some,
    Option.map_eq_some_iff]
  exact and_congr_right fun _ => exists_congr fun x => and_congr_right fun _ => eq_comm

/-- A vector is answered exactly if it has a rating. -/
theorem nonempty?_eq_none_iff {v : RatingVector} :
    nonempty? v = none ↔ ∀ item, v.ratings.get? item = none := by
  rw [nonempty?, ← Table.isEmpty_iff]
  cases v.ratings.isEmpty <;> simp

/-- What is answered is the vector itself. -/
theorem eq_of_nonempty?_eq_some {v r : RatingVector} (h : nonempty? v = some r) : r = v := by
  rw [nonempty?, Option.ite_none_left_eq_some] at h
  exact (Option.some_inj.mp h.2).symm

/-- An entry stands before another if its estimate is greater, or the same and its item not
greater. -/
theorem before_iff {a b : Int32 × Rating} :
    before a b = true ↔
      b.2.value.rank < a.2.value.rank ∨ (a.2.value.rank = b.2.value.rank ∧ a.1 ≤ b.1) := by
  simp only [before, Bool.or_eq_true, Bool.and_eq_true, decide_eq_true_eq]

/-- What stands before an entry stands before all that it stands before. -/
theorem before_trans (a b c : Int32 × Rating) (hab : before a b = true) (hbc : before b c = true) :
    before a c = true := by
  rw [before_iff] at hab hbc ⊢
  rcases hab with hab | ⟨hab, hitem⟩
  · exact .inl (by omega)
  · rcases hbc with hbc | ⟨hbc, hitem'⟩
    · exact .inl (by omega)
    · exact .inr ⟨hab.trans hbc, Int32.le_trans hitem hitem'⟩

/-- Of two entries, one stands before the other. -/
theorem before_total (a b : Int32 × Rating) : (before a b || before b a) = true := by
  rw [Bool.or_eq_true, before_iff, before_iff]
  rcases Int.lt_trichotomy a.2.value.rank b.2.value.rank with h | h | h
  · exact .inr (.inl h)
  · rcases Int32.le_total a.1 b.1 with hitem | hitem
    · exact .inl (.inr ⟨h, hitem⟩)
    · exact .inr (.inr ⟨h.symm, hitem⟩)
  · exact .inl (.inl h)

/-- An item is ranked above another one: its estimate is above the other, or it is the same
and the item smaller. -/
def Outranks (m : MeanModel) (u : RatingVector) (a b : Int32) : Prop :=
  ∃ x y, m.estimate? u a = some x ∧ m.estimate? u b = some y ∧
    (Decimal.Above x y ∨ (x = y ∧ a < b))

/-- An item whose estimate stands before that of another one is ranked above it. -/
theorem outranks_of_before {m : MeanModel} {u : RatingVector} {a b : Int32} {x y : Double}
    (hx : m.estimate? u a = some x) (hy : m.estimate? u b = some y) (hne : a ≠ b)
    (h : before (a, { value := x }) (b, { value := y }) = true) : m.Outranks u a b := by
  refine ⟨x, y, hx, hy, (before_iff.mp h).imp Decimal.rank_lt_iff.mp ?_⟩
  rintro ⟨hrank, hitem⟩
  exact ⟨Decimal.rank_inj.mp hrank, Int32.lt_of_le_of_ne hitem hne⟩

/-- The estimates of some items, best first. -/
def ranking (m : MeanModel) (u : RatingVector) (items : List Int32) : List (Int32 × Rating) :=
  (m.estimates u items).ratings.entries.mergeSort before

/-- The ranking is one of the estimates. -/
theorem ranking_perm (m : MeanModel) (u : RatingVector) {items : List Int32}
    (h : items.Nodup) : (m.ranking u items).Perm (m.estimated u items) := by
  have hkeys : ((m.estimated u items).map (·.1)).Nodup := by
    rw [keys_estimated]
    exact h.filter _
  rw [ranking, estimates_eq]
  exact (List.mergeSort_perm _ _).trans (Table.entries_ofList_perm hkeys)

/-- The ranking is in order. -/
theorem pairwise_ranking (m : MeanModel) (u : RatingVector) (items : List Int32) :
    (m.ranking u items).Pairwise fun a b => before a b = true :=
  List.pairwise_mergeSort before_trans before_total _

/-- Those of some items that can be recommended to a user: the user has not rated them, and
there is an estimate. -/
def candidates (m : MeanModel) (u : RatingVector) (items : List Int32) : List Int32 :=
  items.filter fun item => (m.estimate? u item).isSome && !u.ratings.contains item

/-- The entries of the candidates, best first. -/
def rankedCandidates (m : MeanModel) (u : RatingVector) (items : List Int32) :
    List (Int32 × Rating) :=
  m.ranking u (items.filter fun item => !u.ratings.contains item)

/-- The entries that a limit leaves of those of the candidates. -/
def chosen (m : MeanModel) (u : RatingVector) (items : List Int32) (limit : Int32) :
    List (Int32 × Rating) :=
  if 0 < limit.toInt then (m.rankedCandidates u items).take limit.toInt.toNat
  else m.rankedCandidates u items

/-- What is chosen is recommended. -/
theorem recommend_eq (m : MeanModel) (u : RatingVector) (items : List Int32) (limit : Int32) :
    m.recommend u items limit =
      nonempty? ⟨u.id, .user, .ofList (m.chosen u items limit)⟩ := by
  have hfold : m.recommend u items limit = nonempty?
      ((m.chosen u items limit).foldl (fun v e => v.put e.1 e.2) { id := u.id, side := .user }) :=
    rfl
  rw [hfold, RatingVector.foldl_put]
  rfl

/-- A recommendation of some candidates to a user. -/
structure IsTop (m : MeanModel) (u : RatingVector) (items : List Int32) (limit : Int32)
    (r : RatingVector) : Prop where
  /-- It is for the user. -/
  id_eq : r.id = u.id
  /-- It is a vector of a user. -/
  side_eq : r.side = .user
  /-- What is in it is the estimate for a candidate. -/
  estimated : ∀ item x, r.ratings.get? item = some x → item ∈ m.candidates u items ∧
    ∃ value, m.estimate? u item = some value ∧ x = { value }
  /-- All candidates are in it unless a limit above zero is too low. -/
  all : limit.toInt ≤ 0 ∨ (m.candidates u items).length ≤ limit.toInt →
    ∀ item ∈ m.candidates u items, (r.ratings.get? item).isSome = true
  /-- Otherwise it has as many as the limit says. -/
  size_eq : 0 < limit.toInt → limit.toInt < (m.candidates u items).length →
    r.ratings.size = limit.toInt
  /-- Every candidate in it is ranked above every one that is not. -/
  best : ∀ a ∈ m.candidates u items, ∀ b ∈ m.candidates u items,
    (r.ratings.get? a).isSome = true → r.ratings.get? b = none → m.Outranks u a b

/-- What is recommended of some items: nothing if there are no candidates, and otherwise the
top of the ranking. -/
def IsRecommendation (m : MeanModel) (u : RatingVector) (items : List Int32) (limit : Int32) :
    Option RatingVector → Prop
  | none => m.candidates u items = []
  | some r => m.candidates u items ≠ [] ∧ m.IsTop u items limit r

section Choice

variable (m : MeanModel) (u : RatingVector) {items : List Int32} (h : items.Nodup)

include h

/-- The ranked entries are those of the candidates. -/
theorem mem_rankedCandidates_iff {item : Int32} {r : Rating} :
    (item, r) ∈ m.rankedCandidates u items ↔ item ∈ m.candidates u items ∧
      ∃ x, m.estimate? u item = some x ∧ r = { value := x } := by
  rw [rankedCandidates, (m.ranking_perm u (h.filter _)).mem_iff, mem_estimated_iff, candidates,
    List.mem_filter, List.mem_filter, Bool.and_eq_true]
  constructor
  · rintro ⟨⟨hitem, hunrated⟩, x, hx, hr⟩
    exact ⟨⟨hitem, Option.isSome_of_eq_some hx, hunrated⟩, x, hx, hr⟩
  · rintro ⟨⟨hitem, -, hunrated⟩, hx⟩
    exact ⟨⟨hitem, hunrated⟩, hx⟩

/-- The ranked items are the candidates. -/
theorem keys_rankedCandidates_perm :
    ((m.rankedCandidates u items).map (·.1)).Perm (m.candidates u items) := by
  have hperm := (m.ranking_perm u (h.filter fun item => !u.ratings.contains item)).map (·.1)
  rw [keys_estimated, List.filter_filter] at hperm
  exact hperm

/-- As many entries are ranked as there are candidates. -/
theorem length_rankedCandidates :
    (m.rankedCandidates u items).length = (m.candidates u items).length := by
  rw [← (m.keys_rankedCandidates_perm u h).length_eq, List.length_map]

/-- No item is ranked twice. -/
theorem nodup_keys_rankedCandidates : ((m.rankedCandidates u items).map (·.1)).Nodup :=
  (m.keys_rankedCandidates_perm u h).nodup_iff.mpr (h.filter _)

/-- What comes first in the ranking is ranked above all that comes later. -/
theorem outranks_of_append {first rest : List (Int32 × Rating)}
    (hranked : m.rankedCandidates u items = first ++ rest) {a b : Int32}
    (ha : a ∈ first.map (·.1)) (hb : b ∈ rest.map (·.1)) : m.Outranks u a b := by
  have hordered : (m.rankedCandidates u items).Pairwise fun a b => before a b = true :=
    m.pairwise_ranking u _
  have hkeys := m.nodup_keys_rankedCandidates u h
  have hentry : ∀ e ∈ m.rankedCandidates u items,
      ∃ x, m.estimate? u e.1 = some x ∧ e.2 = { value := x } := fun _ he =>
    ((m.mem_rankedCandidates_iff u h).mp he).2
  rw [hranked] at hordered hentry
  rw [hranked, List.map_append] at hkeys
  obtain ⟨-, -, hacross⟩ := List.pairwise_append.mp hordered
  obtain ⟨-, -, hapart⟩ := List.nodup_append.mp hkeys
  have hne : a ≠ b := hapart a ha b hb
  obtain ⟨⟨_, r⟩, har, rfl⟩ := List.mem_map.mp ha
  obtain ⟨⟨_, q⟩, hbq, rfl⟩ := List.mem_map.mp hb
  obtain ⟨x, hx, rfl⟩ := hentry _ (List.mem_append_left _ har)
  obtain ⟨y, hy, rfl⟩ := hentry _ (List.mem_append_right _ hbq)
  exact outranks_of_before hx hy hne (hacross _ har _ hbq)

/-- The ranking begins with what is chosen, and goes on only if the limit cuts it off. -/
theorem rankedCandidates_eq_append (limit : Int32) :
    ∃ rest, m.rankedCandidates u items = m.chosen u items limit ++ rest ∧
      (limit.toInt ≤ 0 ∨ (m.candidates u items).length ≤ limit.toInt → rest = []) ∧
      (0 < limit.toInt → limit.toInt < (m.candidates u items).length →
        (m.chosen u items limit).length = limit.toInt) := by
  have hlength := m.length_rankedCandidates u h
  by_cases hlimit : 0 < limit.toInt
  · rw [chosen, if_pos hlimit]
    refine ⟨_, (List.take_append_drop _ _).symm, fun hroom => ?_, fun _ hcut => ?_⟩
    · exact List.drop_eq_nil_of_le (by omega)
    · rw [List.length_take]
      omega
  · rw [chosen, if_neg hlimit]
    exact ⟨[], (List.append_nil _).symm, fun _ => rfl, fun hpos => absurd hpos hlimit⟩

/-- What is chosen is the top of the ranking. -/
theorem isTop_chosen (limit : Int32) :
    m.IsTop u items limit ⟨u.id, .user, .ofList (m.chosen u items limit)⟩ := by
  obtain ⟨rest, hranked, hroom, hcut⟩ := m.rankedCandidates_eq_append u h limit
  have hkeys := m.nodup_keys_rankedCandidates u h
  have hmem : ∀ {item}, item ∈ m.candidates u items ↔
      item ∈ (m.rankedCandidates u items).map (·.1) := fun {item} =>
    (m.keys_rankedCandidates_perm u h).mem_iff.symm
  rw [hranked, List.map_append] at hkeys hmem
  obtain ⟨hdistinct, -, -⟩ := List.nodup_append.mp hkeys
  have hthere : ∀ {item}, ((Table.ofList (m.chosen u items limit)).get? item).isSome = true ↔
      item ∈ (m.chosen u items limit).map (·.1) := fun {item} =>
    Table.isSome_get?_ofList _ item
  refine ⟨rfl, rfl, fun item x hx => ?_, fun hall item hitem => ?_, fun hpos hlow => ?_,
    fun a ha b hb hathere hbgone => ?_⟩
  · rw [Table.get?_ofList_eq_some_iff hdistinct] at hx
    exact (m.mem_rankedCandidates_iff u h).mp (hranked ▸ List.mem_append_left _ hx)
  · have hitem := hmem.mp hitem
    rw [hroom hall, List.map_nil, List.append_nil] at hitem
    exact hthere.mpr hitem
  · rw [Table.size, (Table.entries_ofList_perm hdistinct).length_eq]
    exact hcut hpos hlow
  · refine m.outranks_of_append u h hranked (hthere.mp hathere) ?_
    refine (List.mem_append.mp (hmem.mp hb)).resolve_left fun hbchosen => ?_
    rw [← hthere, hbgone] at hbchosen
    cases hbchosen

/-- Nothing is chosen exactly if there are no candidates. -/
theorem isEmpty_chosen_iff (limit : Int32) :
    (Table.ofList (m.chosen u items limit)).isEmpty = true ↔ m.candidates u items = [] := by
  have htop := m.isTop_chosen u h limit
  constructor
  · intro hempty
    refine List.eq_nil_iff_forall_not_mem.mpr fun item hitem => ?_
    by_cases hroom : limit.toInt ≤ 0 ∨ (m.candidates u items).length ≤ limit.toInt
    · have hthere := htop.all hroom item hitem
      rw [(Table.isEmpty_iff _).mp hempty] at hthere
      cases hthere
    · have hsize := htop.size_eq (by omega) (by omega)
      rw [Table.size, List.isEmpty_iff.mp hempty, List.length_nil] at hsize
      omega
  · intro hnone
    obtain ⟨rest, hranked, -⟩ := m.rankedCandidates_eq_append u h limit
    have hlength := m.length_rankedCandidates u h
    rw [hnone, List.length_nil, List.length_eq_zero_iff, hranked] at hlength
    rw [(List.append_eq_nil_iff.mp hlength).1]
    rfl

/-- What a model recommends is the top of the ranking. -/
theorem isRecommendation_recommend (limit : Int32) :
    m.IsRecommendation u items limit (m.recommend u items limit) := by
  have hempty := m.isEmpty_chosen_iff u h limit
  rw [recommend_eq, nonempty?]
  split
  · rename_i hnone
    exact hempty.mp hnone
  · rename_i hsome
    exact ⟨fun hnone => hsome (hempty.mpr hnone), m.isTop_chosen u h limit⟩

end Choice

end MeanModel

namespace Store

/-- The recommendations of a store. -/
structure RecommendsBest (s : Store) : Prop where
  /-- To a user who is given by a vector, the top of the ranking of the items that the store
  lists is recommended. -/
  recommend : ∃ items : List Int32, s.Lists (perform (.ids .item) s) items ∧ items.Nodup ∧
    ∀ (t : RecommendTarget) (limit : Int32), ∃ answer,
      perform (.recommend t limit) s = (.ok answer, s) ∧
        s.model.IsRecommendation t.ratings items limit answer
  /-- To a user who is named, what is recommended for the stored vector, or an empty one. -/
  recommendUser : ∀ (id limit : Int32) (profile : Option Profile), ∃ stored,
    perform (.ratingsOf .user id) s = (.ok stored, s) ∧
      perform (.recommendUser id limit) s =
        perform (.recommend ⟨stored.getD { id, side := .user }, profile⟩ limit) s

/-- Whatever a store has learned, what it recommends is the top of the ranking. -/
theorem recommends_best (s : Store) : s.RecommendsBest where
  recommend := by
    have hnodup := s.data.nodup_ids .item
    exact ⟨s.data.ids .item, s.lists_cursor _, hnodup, fun t limit =>
      ⟨_, rfl, s.model.isRecommendation_recommend t.ratings hnodup limit⟩⟩
  recommendUser _ _ _ := ⟨_, rfl, rfl⟩

end Store

end RatingServer
