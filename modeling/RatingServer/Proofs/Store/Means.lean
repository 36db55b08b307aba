import Mathlib.Data.List.Induction
import RatingServer.Proofs.Decimal.Counts
import RatingServer.Proofs.Store.Ratings
import RatingServer.Store.MeanModel

/-!
# The means of ratings

Ratings are met user by user, and the sums of all items grow side by side. Still the sum of
an item is that of its own values alone, added in the order of the users who gave them: what
is met in between leaves it. So every mean is told by the ratings in the order of their
places, and each is divided by a count that is not zero.
-/

namespace RatingServer

/-- A place comes before another one: its user does, or it is of the same user and its item
does. -/
def Cell.Precedes (a b : Cell) : Prop := a.user < b.user ∨ (a.user = b.user ∧ a.item < b.item)

/-- All ratings of a map, each once, in the order of their places. -/
structure RatingMap.IsListing (m : RatingMap) (l : List (Cell × Rating)) : Prop where
  /-- They stand in the order of their places. -/
  ordered : l.Pairwise fun a b => a.1.Precedes b.1
  /-- They are the ratings of the map. -/
  mem_iff : ∀ c r, (c, r) ∈ l ↔ m c = some r

/-- The ratings of each user after those of the users before. -/
def RatingRows.listing (t : RatingRows) : List (Cell × Rating) :=
  t.entries.flatMap fun (user, row) => row.ratings.entries.map fun (item, r) => (⟨user, item⟩, r)

/-- Where the rows of users and their items stand in order, the ratings do. -/
theorem RatingRows.isListing (t : RatingRows) : t.at?.IsListing t.listing where
  ordered := by
    refine List.pairwise_flatMap.mpr ⟨fun e _ => ?_, ?_⟩
    · refine List.pairwise_map.mpr ((List.pairwise_map.mp e.2.ratings.pairwise_keys).imp ?_)
      exact fun hlt => .inr ⟨rfl, hlt⟩
    · refine (List.pairwise_map.mp t.pairwise_keys).imp fun hlt x hx y hy => ?_
      obtain ⟨_, -, rfl⟩ := List.mem_map.mp hx
      obtain ⟨_, -, rfl⟩ := List.mem_map.mp hy
      exact .inl hlt
  mem_iff c r := by
    rw [listing, List.mem_flatMap, at?, Option.bind_eq_some_iff]
    constructor
    · rintro ⟨⟨user, row⟩, hrow, hmem⟩
      obtain ⟨⟨item, r'⟩, hentry, heq⟩ := List.mem_map.mp hmem
      obtain ⟨rfl, rfl⟩ := Prod.mk.inj heq
      exact ⟨row, Table.get?_eq_some_iff.mpr hrow, Table.get?_eq_some_iff.mpr hentry⟩
    · rintro ⟨row, hrow, hr⟩
      exact ⟨(c.user, row), Table.get?_eq_some_iff.mp hrow,
        List.mem_map.mpr ⟨(c.item, r), Table.get?_eq_some_iff.mp hr, rfl⟩⟩

/-- The values of some ratings, in order. -/
def valuesOf (l : List (Cell × Rating)) : List Double := l.map (·.2.value)

/-- The ratings of one item, in order. -/
def ratingsFor (item : Int32) (l : List (Cell × Rating)) : List (Cell × Rating) :=
  l.filter (·.1.item = item)

/-- The mean of the values of some ratings, added from left to right. -/
def meanOf? (l : List (Cell × Rating)) : Option Double :=
  if l = [] then none else some ((valuesOf l).foldl (· + ·) 0.0 / .ofNat l.length)

namespace MeanModel

/-- A tally of some ratings. -/
structure Tally.Tallies (t : Tally) (l : List (Cell × Rating)) : Prop where
  /-- For each item that was rated, the sum of its values and their number. -/
  item_eq : ∀ item, t.items.get? item =
    if ratingsFor item l = [] then none
    else some ((valuesOf (ratingsFor item l)).foldl (· + ·) 0.0, (ratingsFor item l).length)
  /-- The sum of all values. -/
  total_eq : t.total = (valuesOf l).foldl (· + ·) 0.0
  /-- The number of all values. -/
  count_eq : t.count = l.length

/-- What is met of an item begins with zero. -/
theorem Tally.Tallies.getD_eq {t : Tally} {l : List (Cell × Rating)} (h : t.Tallies l)
    (item : Int32) : (t.items.get? item).getD (0.0, 0) =
      ((valuesOf (ratingsFor item l)).foldl (· + ·) 0.0, (ratingsFor item l).length) := by
  rw [h.item_eq]
  split
  · rename_i hnone
    rw [hnone]
    rfl
  · rfl

/-- One more rating is met after all others. -/
theorem Tally.Tallies.add {t : Tally} {l : List (Cell × Rating)} (h : t.Tallies l)
    (e : Cell × Rating) : (t.add e.1.item e.2.value).Tallies (l ++ [e]) where
  item_eq item := by
    have hinsert : (t.add e.1.item e.2.value).items = t.items.insert e.1.item
        (((t.items.get? e.1.item).getD (0.0, 0)).1 + e.2.value,
          ((t.items.get? e.1.item).getD (0.0, 0)).2 + 1) := rfl
    rw [hinsert, Table.get?_insert, h.getD_eq]
    by_cases hitem : item = e.1.item
    · have hlast : ratingsFor item (l ++ [e]) = ratingsFor item l ++ [e] := by
        simp [ratingsFor, hitem]
      rw [if_pos hitem, hlast, if_neg (by simp), ← hitem, valuesOf, valuesOf, List.map_append,
        List.foldl_append, List.length_append]
      rfl
    · have hother : ratingsFor item (l ++ [e]) = ratingsFor item l := by
        simp [ratingsFor, Ne.symm hitem]
      rw [if_neg hitem, hother, h.item_eq]
  total_eq := by
    rw [Tally.add, h.total_eq, valuesOf, valuesOf, List.map_append, List.foldl_append]
    rfl
  count_eq := by
    rw [Tally.add, h.count_eq, List.length_append]
    rfl

/-- All ratings are met in order. -/
theorem Tally.tallies_foldl (l : List (Cell × Rating)) :
    (l.foldl (fun t e => t.add e.1.item e.2.value) {} : Tally).Tallies l := by
  induction l using List.reverseRecOn with
  | nil => exact ⟨fun _ => rfl, rfl, rfl⟩
  | append_singleton l e ih =>
    rw [List.foldl_append]
    exact ih.add e

/-- The ratings of a dataset are met in order. -/
theorem Tally.tallies_of (d : Dataset) : (Tally.of d).Tallies d.ratings.listing := by
  have hfold : Tally.of d =
      d.ratings.listing.foldl (fun t e => t.add e.1.item e.2.value) {} := by
    rw [Tally.of, RatingRows.listing, List.foldl_flatMap, Table.values, List.foldl_map]
    simp only [List.foldl_map]
  rw [hfold]
  exact tallies_foldl _

/-- The means that are learned from a dataset. -/
structure Learns (d : Dataset) (m : MeanModel) (l : List (Cell × Rating)) : Prop where
  /-- The ratings of the dataset in order. -/
  listing : d.ratings.at?.IsListing l
  /-- Among them, those of one item stand in the order of the users. -/
  item_ordered : ∀ item, (ratingsFor item l).Pairwise fun a b => a.1.user < b.1.user
  /-- An item has a mean exactly if a user rated it. -/
  item_iff : ∀ item, (m.itemMeans.get? item).isSome = true ↔ d.ratings.at?.Rates .item item
  /-- It is the mean of the ratings of the item in the order of the users. -/
  item_eq : ∀ item, m.itemMeans.get? item = meanOf? (ratingsFor item l)
  /-- There is a mean of all ratings exactly if there is a rating. -/
  global_iff : m.globalMean.isSome = true ↔ ∃ c, (d.ratings.at? c).isSome = true
  /-- It is the mean of the ratings in the order of their places. -/
  global_eq : m.globalMean = meanOf? l
  /-- What the sum of an item is divided by is not zero. -/
  item_divisor : ∀ item sum n, (Tally.of d).items.get? item = some (sum, n) →
    (Double.ofNat n).agrees 0.0 = false
  /-- What the sum of all ratings is divided by is not zero. -/
  global_divisor : 0 < (Tally.of d).count → (Double.ofNat (Tally.of d).count).agrees 0.0 = false
  /-- What the sum of a user's own ratings is divided by is not zero. -/
  own_divisor : ∀ u : RatingVector, u.ratings.isEmpty = false →
    (Double.ofNat u.ratings.size).agrees 0.0 = false

/-- In a listing, the ratings of one item stand in the order of the users. -/
theorem pairwise_ratingsFor {m : RatingMap} {l : List (Cell × Rating)} (h : m.IsListing l)
    (item : Int32) : (ratingsFor item l).Pairwise fun a b => a.1.user < b.1.user := by
  refine (h.ordered.filter (·.1.item = item)).imp_of_mem fun {a b} ha hb hprecedes => ?_
  have hitem : ∀ {e}, e ∈ ratingsFor item l → e.1.item = item := fun he =>
    of_decide_eq_true (List.mem_filter.mp he).2
  rcases hprecedes with huser | ⟨-, hlt⟩
  · exact huser
  · rw [hitem ha, hitem hb] at hlt
    exact absurd hlt Int32.lt_irrefl

/-- There is a mean of some ratings exactly if there are any. -/
theorem isSome_meanOf?_iff {l : List (Cell × Rating)} :
    (meanOf? l).isSome = true ↔ ∃ c r, (c, r) ∈ l := by
  cases l with
  | nil => simp [meanOf?]
  | cons e l => exact iff_of_true rfl ⟨e.1, e.2, List.mem_cons_self⟩

/-- The mean of an item that is learned is that of its ratings in order. -/
theorem get?_itemMeans_learn (d : Dataset) (item : Int32) :
    (learn d).itemMeans.get? item = meanOf? (ratingsFor item d.ratings.listing) := by
  rw [learn, Table.get?_map, (Tally.tallies_of d).item_eq, meanOf?]
  split
  · rfl
  · rfl

/-- The mean of all ratings that is learned is that of the ratings in order. -/
theorem globalMean_learn (d : Dataset) : (learn d).globalMean = meanOf? d.ratings.listing := by
  have htallies := Tally.tallies_of d
  have hmean : (learn d).globalMean = if 0 < (Tally.of d).count
      then some ((Tally.of d).total / .ofNat (Tally.of d).count) else none := rfl
  rw [hmean, meanOf?, htallies.count_eq, htallies.total_eq]
  cases d.ratings.listing with
  | nil => rfl
  | cons e l => rfl

/-- The means that are learned are those of the ratings in order. -/
theorem learns_learn (d : Dataset) : Learns d (learn d) d.ratings.listing where
  listing := d.ratings.isListing
  item_ordered := pairwise_ratingsFor d.ratings.isListing
  item_iff item := by
    rw [get?_itemMeans_learn, isSome_meanOf?_iff, RatingMap.rates_iff]
    refine exists_congr fun c => ?_
    simp only [ratingsFor, List.mem_filter, d.ratings.isListing.mem_iff, decide_eq_true_eq,
      exists_and_left, Option.isSome_iff_exists, and_comm, Cell.along]
  item_eq := get?_itemMeans_learn d
  global_iff := by
    rw [globalMean_learn, isSome_meanOf?_iff]
    simp only [d.ratings.isListing.mem_iff, Option.isSome_iff_exists]
  global_eq := globalMean_learn d
  item_divisor item sum n htally := by
    rw [(Tally.tallies_of d).item_eq] at htally
    split at htally
    · cases htally
    · rename_i hsome
      obtain ⟨-, rfl⟩ := Prod.mk.inj (Option.some_inj.mp htally)
      exact Decimal.ofNat_agrees_zero (List.length_pos_iff.mpr hsome)
  global_divisor hpos := Decimal.ofNat_agrees_zero hpos
  own_divisor u hfull := by
    refine Decimal.ofNat_agrees_zero (List.length_pos_iff.mpr fun hnone => ?_)
    rw [Table.isEmpty, hnone] at hfull
    cases hfull

end MeanModel

end RatingServer
