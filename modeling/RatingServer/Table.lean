/-!
# Ordered tables

A table is a finite map kept as the list of its entries in strictly ascending
key order. Every operation keeps the order, so the list of entries is
determined by the lookups alone: two tables with equal lookups are equal.
-/

namespace RatingServer

/-- Finite map with its entries in strictly ascending key order. -/
structure Table (κ α : Type) [Ord κ] where
  /-- The entries, smallest key first. -/
  entries : List (κ × α)
  /-- Each key is strictly below every later one. -/
  ascending : entries.Pairwise fun a b => compare a.1 b.1 = .lt
  deriving DecidableEq

namespace Table

variable {κ α β : Type} [Ord κ]

/-- The table without entries. -/
def empty : Table κ α := ⟨[], .nil⟩

instance : Inhabited (Table κ α) := ⟨empty⟩
instance : EmptyCollection (Table κ α) := ⟨empty⟩

/-- Equality of tables under an equality test of their values. -/
instance [BEq κ] [BEq α] : BEq (Table κ α) := ⟨fun a b => a.entries == b.entries⟩

/-- The value in a list of entries under a key. -/
def lookup (k : κ) : List (κ × α) → Option α
  | [] => none
  | (k', v) :: rest => if compare k k' = .eq then some v else lookup k rest

/-- The value under a key. -/
def get? (t : Table κ α) (k : κ) : Option α := lookup k t.entries

/-- Whether the table holds the key. -/
def contains (t : Table κ α) (k : κ) : Bool := (t.get? k).isSome

/-- The keys in ascending order. -/
def keys (t : Table κ α) : List κ := t.entries.map (·.1)

/-- The values in ascending order of their keys. -/
def values (t : Table κ α) : List α := t.entries.map (·.2)

/-- The number of entries. -/
def size (t : Table κ α) : Nat := t.entries.length

/-- Whether there is no entry. -/
def isEmpty (t : Table κ α) : Bool := t.entries.isEmpty

/-- Insertion of an entry at its place, over an entry of the same key. -/
def place (k : κ) (v : α) : List (κ × α) → List (κ × α)
  | [] => [(k, v)]
  | (k', v') :: rest =>
    match compare k k' with
    | .lt => (k, v) :: (k', v') :: rest
    | .eq => (k, v) :: rest
    | .gt => (k', v') :: place k v rest

theorem mem_place {k : κ} {v : α} {l : List (κ × α)} {e : κ × α} (h : e ∈ place k v l) :
    e = (k, v) ∨ e ∈ l := by
  induction l with
  | nil => simpa [place] using h
  | cons a rest ih =>
    obtain ⟨k', v'⟩ := a
    rw [place] at h
    split at h
    · simpa using h
    · rcases List.mem_cons.mp h with h | h
      · exact .inl h
      · exact .inr (List.mem_cons_of_mem _ h)
    · rcases List.mem_cons.mp h with h | h
      · exact .inr (h ▸ List.mem_cons_self)
      · exact (ih h).imp id (List.mem_cons_of_mem _)

section Lawful

variable [Std.TransOrd κ] [Std.LawfulEqOrd κ]

theorem pairwise_place (k : κ) (v : α) {l : List (κ × α)}
    (h : l.Pairwise fun a b => compare a.1 b.1 = .lt) :
    (place k v l).Pairwise fun a b => compare a.1 b.1 = .lt := by
  induction l with
  | nil => exact List.pairwise_singleton _ _
  | cons a rest ih =>
    obtain ⟨k', v'⟩ := a
    obtain ⟨hhead, htail⟩ := List.pairwise_cons.mp h
    rw [place]
    split
    · rename_i hlt
      refine List.pairwise_cons.mpr ⟨fun e he => ?_, h⟩
      rcases List.mem_cons.mp he with rfl | he
      · exact hlt
      · exact Std.TransCmp.lt_trans hlt (hhead e he)
    · rename_i heq
      cases Std.LawfulEqOrd.eq_of_compare heq
      exact List.pairwise_cons.mpr ⟨hhead, htail⟩
    · rename_i hgt
      refine List.pairwise_cons.mpr ⟨fun e he => ?_, ih htail⟩
      rcases mem_place he with rfl | he
      · exact Std.OrientedCmp.lt_of_gt hgt
      · exact hhead e he

/-- The table with a value under a key, in place of any value there. -/
def insert (t : Table κ α) (k : κ) (v : α) : Table κ α :=
  ⟨place k v t.entries, pairwise_place k v t.ascending⟩

/-- The table of some entries; of two entries with one key the later one counts. -/
def ofList (l : List (κ × α)) : Table κ α :=
  l.foldl (fun t e => t.insert e.1 e.2) empty

end Lawful

/-- The table with only the entries that pass a test. -/
def filter (p : κ → α → Bool) (t : Table κ α) : Table κ α :=
  ⟨t.entries.filter fun e => p e.1 e.2, t.ascending.filter _⟩

/-- The table without a key. -/
def erase (t : Table κ α) (k : κ) : Table κ α :=
  t.filter fun k' _ => compare k k' != .eq

/-- The table with every value replaced, each under its key. -/
def map (f : κ → α → β) (t : Table κ α) : Table κ β :=
  ⟨t.entries.map fun e => (e.1, f e.1 e.2), List.pairwise_map.mpr t.ascending⟩

/-- The table with the value under a key changed, if there is one. -/
def modify (t : Table κ α) (k : κ) (f : α → α) : Table κ α :=
  t.map fun k' v => if compare k k' = .eq then f v else v

@[simp] theorem get?_empty (k : κ) : (empty : Table κ α).get? k = none := rfl

section Lookup

variable [Std.LawfulEqOrd κ]

private theorem lookup_place_self (k : κ) (v : α) (l : List (κ × α)) :
    lookup k (place k v l) = some v := by
  induction l with
  | nil => simp [place, lookup]
  | cons a rest ih =>
    obtain ⟨k', v'⟩ := a
    rw [place]
    split
    · simp [lookup]
    · simp [lookup]
    · rename_i hgt
      simp [lookup, hgt, ih]

private theorem lookup_place_ne {k k₀ : κ} (v : α) (l : List (κ × α)) (hne : k₀ ≠ k) :
    lookup k₀ (place k v l) = lookup k₀ l := by
  have hk : compare k₀ k ≠ .eq := fun h => hne (Std.LawfulEqOrd.eq_of_compare h)
  induction l with
  | nil => simp [place, lookup, hk]
  | cons a rest ih =>
    obtain ⟨k', v'⟩ := a
    rw [place]
    split
    · simp [lookup, hk]
    · rename_i heq
      cases Std.LawfulEqOrd.eq_of_compare heq
      simp [lookup, hk]
    · simp [lookup, ih]

/-- An insertion changes the lookup of its own key alone. -/
theorem get?_insert [Std.TransOrd κ] [DecidableEq κ] (t : Table κ α) (k k₀ : κ) (v : α) :
    (t.insert k v).get? k₀ = if k₀ = k then some v else t.get? k₀ := by
  split
  · subst k₀
    exact lookup_place_self k v t.entries
  · exact lookup_place_ne v t.entries ‹_›

/-- A lookup finds exactly the entries. -/
theorem get?_eq_some_iff {t : Table κ α} {k : κ} {v : α} :
    t.get? k = some v ↔ (k, v) ∈ t.entries := by
  obtain ⟨l, hl⟩ := t
  simp only [get?]
  induction l with
  | nil => simp [lookup]
  | cons a rest ih =>
    obtain ⟨k', v'⟩ := a
    obtain ⟨hhead, htail⟩ := List.pairwise_cons.mp hl
    rw [lookup]
    by_cases hk : compare k k' = .eq
    · cases Std.LawfulEqOrd.eq_of_compare hk
      have habsent : (k, v) ∉ rest := fun hmem => by
        have := hhead _ hmem
        simp at this
      simp [habsent, eq_comm]
    · have hne : k ≠ k' := fun h => hk (h ▸ Std.ReflOrd.compare_self)
      simp [hk, hne, ih htail]

/-- Tables with the same lookups are equal. -/
theorem ext_get? [Std.TransOrd κ] {s t : Table κ α} (h : ∀ k, s.get? k = t.get? k) : s = t := by
  have hmem : ∀ e, e ∈ s.entries ↔ e ∈ t.entries := fun e => by
    rw [← get?_eq_some_iff (k := e.1) (v := e.2), h, get?_eq_some_iff]
  obtain ⟨l, hl⟩ := s
  obtain ⟨m, hm⟩ := t
  simp only [mk.injEq]
  simp only at hmem
  clear h
  induction l generalizing m with
  | nil =>
    cases m with
    | nil => rfl
    | cons b _ => exact absurd ((hmem b).mpr List.mem_cons_self) List.not_mem_nil
  | cons a l ih =>
    cases m with
    | nil => exact absurd ((hmem a).mp List.mem_cons_self) List.not_mem_nil
    | cons b m =>
      obtain ⟨hla, hl'⟩ := List.pairwise_cons.mp hl
      obtain ⟨hmb, hm'⟩ := List.pairwise_cons.mp hm
      have hab : a = b := by
        rcases List.mem_cons.mp ((hmem a).mp List.mem_cons_self) with h | h
        · exact h
        · rcases List.mem_cons.mp ((hmem b).mpr List.mem_cons_self) with h' | h'
          · exact h'.symm
          · have h₁ := hmb _ h
            have h₂ := hla _ h'
            rw [Std.OrientedCmp.gt_of_lt h₁] at h₂
            cases h₂
      subst hab
      have hirrefl : compare a.1 a.1 ≠ .lt := by simp
      congr 1
      refine ih hl' m hm' fun e => ?_
      constructor <;> intro he
      · rcases List.mem_cons.mp ((hmem e).mp (List.mem_cons_of_mem _ he)) with rfl | h
        · exact absurd (hla _ he) hirrefl
        · exact h
      · rcases List.mem_cons.mp ((hmem e).mpr (List.mem_cons_of_mem _ he)) with rfl | h
        · exact absurd (hmb _ he) hirrefl
        · exact h

/-- A filtered table answers with the entries that pass. -/
theorem get?_filter (p : κ → α → Bool) (t : Table κ α) (k : κ) :
    (t.filter p).get? k = (t.get? k).filter (p k) := by
  apply Option.ext
  intro v
  rw [get?_eq_some_iff, filter, List.mem_filter, ← get?_eq_some_iff]
  simp [Option.filter_eq_some_iff]

/-- An erasure changes the lookup of its own key alone. -/
theorem get?_erase [DecidableEq κ] (t : Table κ α) (k k₀ : κ) :
    (t.erase k).get? k₀ = if k₀ = k then none else t.get? k₀ := by
  rw [erase, get?_filter]
  by_cases h : k₀ = k
  · subst h
    cases t.get? k₀ <;> simp [Option.filter]
  · have hk : compare k k₀ ≠ .eq := fun he => h (Std.LawfulEqOrd.eq_of_compare he).symm
    cases ht : t.get? k₀ <;> simp [Option.filter, h, hk]

end Lookup

end Table

end RatingServer
