import RatingServer.Table

/-!
# Lookups in ordered tables

Tables are told apart by their lookups. A table built from a list answers with the
last entry of each key, so that it is rebuilt from its own entries; a fold of
insertions over a list whose keys are distinct changes exactly the lookups of those
keys. What holds of every entry is kept by insertions, erasures and filters.

A list of values with keys may hold several values under one key. Those under a key stand
in the order of the list, and what stands under other keys does not matter to them.
-/

namespace RatingServer.Table

variable {κ α β : Type} [Ord κ]

/-- The keys stand in strictly ascending order. -/
theorem keys_ascending (t : Table κ α) : t.keys.Pairwise fun a b => compare a b = .lt :=
  List.pairwise_map.mpr t.ascending

/-- Keys that are numbers stand in strictly ascending order. -/
theorem pairwise_keys (t : Table Int32 α) : t.keys.Pairwise (· < ·) :=
  t.keys_ascending.imp Std.compare_eq_lt.mp

/-- The first of some values in an order that passes a test comes before all others that
pass it. -/
theorem find?_eq_some_iff_first {R : α → α → Prop} (hR : ∀ a b, R a b → ¬R b a) {l : List α}
    (hl : l.Pairwise R) {p : α → Bool} {a : α} :
    l.find? p = some a ↔ a ∈ l ∧ p a = true ∧ ∀ b ∈ l, p b = true → b = a ∨ R a b := by
  rw [List.find?_eq_some_iff_append]
  constructor
  · rintro ⟨hpass, before, after, rfl, hbefore⟩
    obtain ⟨-, hafter, -⟩ := List.pairwise_append.mp hl
    refine ⟨List.mem_append_right _ List.mem_cons_self, hpass, fun b hb hb' => ?_⟩
    rcases List.mem_append.mp hb with hb | hb
    · have hfails := hbefore b hb
      rw [hb'] at hfails
      cases hfails
    · exact (List.mem_cons.mp hb).imp_right (List.rel_of_pairwise_cons hafter)
  · rintro ⟨hmem, hpass, hfirst⟩
    obtain ⟨before, after, rfl⟩ := List.append_of_mem hmem
    obtain ⟨-, -, hacross⟩ := List.pairwise_append.mp hl
    refine ⟨hpass, before, after, rfl, fun b hb => ?_⟩
    have hba : R b a := hacross b hb a List.mem_cons_self
    cases hb' : p b with
    | false => rfl
    | true =>
      rcases hfirst b (List.mem_append_left _ hb) hb' with rfl | hab
      · exact absurd hba (hR b b hba)
      · exact absurd hab (hR b a hba)

/-- Every entry has a property. -/
def Each (P : κ → α → Prop) (t : Table κ α) : Prop := ∀ k v, t.get? k = some v → P k v

/-- The empty table has no entry without a property. -/
theorem Each.empty {P : κ → α → Prop} : Each P (Table.empty : Table κ α) :=
  fun _ _ h => by cases h

/-- A property of every entry may be weakened. -/
theorem Each.imp {P Q : κ → α → Prop} {t : Table κ α} (h : ∀ k v, P k v → Q k v)
    (ht : t.Each P) : t.Each Q :=
  fun k v hkv => h k v (ht k v hkv)

section Lawful

variable [Std.LawfulEqOrd κ]

/-- No entry exactly when no lookup finds anything. -/
theorem isEmpty_iff (t : Table κ α) :
    t.isEmpty = true ↔ ∀ k, t.get? k = none := by
  rw [isEmpty, List.isEmpty_iff]
  constructor
  · intro h k
    rw [get?, h, lookup]
  · intro h
    cases he : t.entries with
    | nil => rfl
    | cons a rest =>
      have hmem : (a.1, a.2) ∈ t.entries := by rw [he]; exact List.mem_cons_self
      rw [← get?_eq_some_iff, h] at hmem
      cases hmem

/-- The keys are those at which a lookup finds something. -/
theorem mem_keys_iff {t : Table κ α} {k : κ} : k ∈ t.keys ↔ (t.get? k).isSome = true := by
  rw [keys, List.mem_map, Option.isSome_iff_exists]
  constructor
  · rintro ⟨e, he, rfl⟩
    exact ⟨e.2, get?_eq_some_iff.mpr he⟩
  · rintro ⟨v, hv⟩
    exact ⟨(k, v), get?_eq_some_iff.mp hv, rfl⟩

/-- The keys are distinct. -/
theorem nodup_keys (t : Table κ α) : t.keys.Nodup := by
  refine t.keys_ascending.imp fun {a b} h hab => ?_
  subst hab
  simp at h

/-- The entries that pass a test keep their properties, and have passed the test. -/
theorem Each.filter {P : κ → α → Prop} {t : Table κ α} (ht : t.Each P) (p : κ → α → Bool) :
    (t.filter p).Each fun k v => P k v ∧ p k v = true := by
  intro k v hkv
  rw [get?_filter, Option.filter_eq_some_iff] at hkv
  exact ⟨ht k v hkv.1, hkv.2⟩

/-- What is left after an erasure keeps its properties. -/
theorem Each.erase {P : κ → α → Prop} {t : Table κ α} (ht : t.Each P) (k : κ) :
    (t.erase k).Each P :=
  (ht.filter _).imp fun _ _ h => h.1

variable [Std.TransOrd κ]

/-- Every entry of a table made from a list stands in the list. -/
theorem mem_of_mem_entries_ofList {l : List (κ × α)} {e : κ × α} (h : e ∈ (ofList l).entries) :
    e ∈ l := by
  have hfold : ∀ t : Table κ α, e ∈ (l.foldl (fun t e => t.insert e.1 e.2) t).entries →
      e ∈ l ∨ e ∈ t.entries := by
    clear h
    induction l with
    | nil => exact fun t h => .inr h
    | cons a l ih =>
      intro t h
      rcases ih _ h with h | h
      · exact .inl (List.mem_cons_of_mem _ h)
      · rcases mem_place h with rfl | h
        · exact .inl List.mem_cons_self
        · exact .inr h
  rcases hfold empty h with h | h
  · exact h
  · cases h

variable [DecidableEq κ]

/-- An inserted entry joins those that have a property. -/
theorem Each.insert {P : κ → α → Prop} {t : Table κ α} (ht : t.Each P) {k : κ} {v : α}
    (h : P k v) : (t.insert k v).Each P := by
  intro k' v' hkv
  rw [get?_insert] at hkv
  by_cases hk : k' = k
  · rw [if_pos hk, Option.some.injEq] at hkv
    exact hk ▸ hkv ▸ h
  · rw [if_neg hk] at hkv
    exact ht k' v' hkv

/-- A table with an inserted entry has an entry. -/
theorem isEmpty_insert (t : Table κ α) (k : κ) (v : α) : (t.insert k v).isEmpty = false := by
  rw [← Bool.not_eq_true, isEmpty_iff]
  intro h
  have hk := h k
  rw [get?_insert, if_pos rfl] at hk
  cases hk

/-- An erasure of a key that is not there leaves the table. -/
theorem erase_eq_self {t : Table κ α} {k : κ} (h : t.contains k = false) : t.erase k = t := by
  refine ext_get? fun k' => ?_
  rw [get?_erase]
  by_cases hk : k' = k
  · rw [if_pos hk, hk]
    exact (Option.not_isSome_iff_eq_none.mp (Bool.eq_false_iff.mp h)).symm
  · rw [if_neg hk]

/-- A fold of insertions leaves a lookup alone whose key it does not meet. -/
theorem get?_foldl_insert_of_not_mem {l : List (κ × α)} {k : κ} (t : Table κ α)
    (h : k ∉ l.map (·.1)) : (l.foldl (fun t e => t.insert e.1 e.2) t).get? k = t.get? k := by
  induction l generalizing t with
  | nil => rfl
  | cons e l ih =>
    rw [List.map_cons, List.mem_cons, not_or] at h
    rw [List.foldl_cons, ih _ h.2, get?_insert, if_neg h.1]

/-- A fold of insertions with distinct keys puts every entry in its place. -/
theorem get?_foldl_insert_of_mem {l : List (κ × α)} {k : κ} {v : α} (t : Table κ α)
    (hmem : (k, v) ∈ l) (hdistinct : (l.map (·.1)).Nodup) :
    (l.foldl (fun t e => t.insert e.1 e.2) t).get? k = some v := by
  induction l generalizing t with
  | nil => cases hmem
  | cons e l ih =>
    rw [List.map_cons, List.nodup_cons] at hdistinct
    rw [List.foldl_cons]
    rcases List.mem_cons.mp hmem with rfl | h
    · rw [get?_foldl_insert_of_not_mem _ hdistinct.1, get?_insert, if_pos rfl]
    · exact ih _ h hdistinct.2

/-- The lookups of a table made from a list of entries with distinct keys are the
entries of the list. -/
theorem get?_ofList_eq_some_iff {l : List (κ × α)} {k : κ} {v : α}
    (hdistinct : (l.map (·.1)).Nodup) : (ofList l).get? k = some v ↔ (k, v) ∈ l := by
  rw [ofList]
  constructor
  · intro h
    by_cases hk : k ∈ l.map (·.1)
    · obtain ⟨e, he, rfl⟩ := List.mem_map.mp hk
      rw [get?_foldl_insert_of_mem _ he hdistinct, Option.some.injEq] at h
      exact h ▸ he
    · rw [get?_foldl_insert_of_not_mem _ hk, get?_empty] at h
      cases h
  · intro h
    exact get?_foldl_insert_of_mem _ h hdistinct

/-- Two tables as one, in which the entries of the second win. -/
def union (t u : Table κ α) : Table κ α :=
  u.entries.foldl (fun t e => t.insert e.1 e.2) t

/-- A lookup in two tables as one finds what the second has, or else what the first has. -/
theorem get?_union (t u : Table κ α) (k : κ) :
    (t.union u).get? k = (u.get? k).or (t.get? k) := by
  rw [union]
  cases hu : u.get? k with
  | none =>
    have hout : k ∉ u.entries.map (·.1) := fun hmem => by
      rw [← keys, mem_keys_iff, hu] at hmem
      cases hmem
    rw [get?_foldl_insert_of_not_mem t hout, Option.none_or]
  | some v =>
    rw [get?_foldl_insert_of_mem t (get?_eq_some_iff.mp hu) u.nodup_keys, Option.some_or]

/-- The entries of a table made from a list with distinct keys are those of the list. -/
theorem entries_ofList_perm {l : List (κ × α)} (hdistinct : (l.map (·.1)).Nodup) :
    (ofList l).entries.Perm l := by
  have hnodup : ∀ {l : List (κ × α)}, (l.map (·.1)).Nodup → l.Nodup := fun h =>
    (List.pairwise_map.mp h).imp fun hne heq => hne (congrArg Prod.fst heq)
  rw [List.perm_ext_iff_of_nodup (hnodup (ofList l).nodup_keys) (hnodup hdistinct)]
  rintro ⟨k, v⟩
  rw [← get?_eq_some_iff, get?_ofList_eq_some_iff hdistinct]

omit [Std.TransOrd κ] [DecidableEq κ] in
/-- The value under a key after every value has been replaced. -/
theorem get?_map {β : Type} (f : κ → α → β) (t : Table κ α) (k : κ) :
    (t.map f).get? k = (t.get? k).map (f k) := by
  refine Option.ext fun y => ?_
  rw [get?_eq_some_iff, map, List.mem_map, Option.map_eq_some_iff]
  constructor
  · rintro ⟨⟨k', x⟩, hentry, heq⟩
    obtain ⟨rfl, rfl⟩ := Prod.mk.inj heq
    exact ⟨x, get?_eq_some_iff.mpr hentry, rfl⟩
  · rintro ⟨x, hx, rfl⟩
    exact ⟨(k, x), get?_eq_some_iff.mp hx, rfl⟩

/-- A table is made again from its entries. -/
@[simp] theorem ofList_entries (t : Table κ α) : ofList t.entries = t := by
  refine ext_get? fun k => Option.ext fun v => ?_
  rw [get?_ofList_eq_some_iff t.nodup_keys, get?_eq_some_iff]

/-- A key is in a table made from a list exactly if it is in the list. -/
theorem isSome_get?_ofList (l : List (κ × α)) (k : κ) :
    ((ofList l).get? k).isSome = true ↔ k ∈ l.map (·.1) := by
  have hfold : ∀ t : Table κ α, ((l.foldl (fun t e => t.insert e.1 e.2) t).get? k).isSome = true ↔
      k ∈ l.map (·.1) ∨ (t.get? k).isSome = true := by
    induction l with
    | nil => simp
    | cons e l ih =>
      intro t
      rw [List.foldl_cons, ih, get?_insert, List.map_cons, List.mem_cons]
      split
      · simp [*]
      · simp [*]
  simpa [ofList] using hfold empty

/-- A set made from a list holds exactly the items of the list. -/
theorem mem_keys_ofList_unit (l : List κ) (k : κ) :
    k ∈ (ofList (l.map fun k => (k, ()))).keys ↔ k ∈ l := by
  rw [mem_keys_iff, isSome_get?_ofList, List.map_map]
  simp

/-- A set is made again from its items. -/
@[simp] theorem ofList_keys_unit (t : Table κ Unit) :
    ofList (t.keys.map fun k => (k, ())) = t := by
  have h : t.keys.map (fun k => (k, ())) = t.entries := by
    rw [keys, List.map_map]
    exact List.map_id _
  rw [h, ofList_entries]

end Lawful

end RatingServer.Table

namespace RatingServer

section Keyed

variable {κ α : Type} [DecidableEq κ]

/-- The values under a key, in their order. -/
def valuesUnder (k : κ) (l : List (κ × α)) : List α :=
  l.filterMap fun e => if e.1 = k then some e.2 else none

/-- A value under the key comes first. -/
theorem valuesUnder_cons_self (k : κ) (a : α) (l : List (κ × α)) :
    valuesUnder k ((k, a) :: l) = a :: valuesUnder k l :=
  List.filterMap_cons_some (if_pos rfl)

/-- A value under another key does not matter. -/
theorem valuesUnder_cons_of_ne {k : κ} {e : κ × α} (h : e.1 ≠ k) (l : List (κ × α)) :
    valuesUnder k (e :: l) = valuesUnder k l :=
  List.filterMap_cons_none (if_neg h)

/-- The values under a key in two lists, one after the other. -/
theorem valuesUnder_append (k : κ) (l l' : List (κ × α)) :
    valuesUnder k (l ++ l') = valuesUnder k l ++ valuesUnder k l' :=
  List.filterMap_append

/-- A value stands under a key exactly if it is in the list with the key. -/
theorem mem_valuesUnder {k : κ} {a : α} {l : List (κ × α)} :
    a ∈ valuesUnder k l ↔ (k, a) ∈ l := by
  rw [valuesUnder, List.mem_filterMap]
  constructor
  · rintro ⟨⟨j, b⟩, hmem, heq⟩
    obtain ⟨rfl, hb⟩ := Option.ite_none_right_eq_some.mp heq
    cases hb
    exact hmem
  · exact fun hmem => ⟨_, hmem, if_pos rfl⟩

/-- The first value under a key stands behind values under other keys. -/
theorem valuesUnder_eq_cons {k : κ} {a : α} {l : List (κ × α)} {rest : List α}
    (h : valuesUnder k l = a :: rest) :
    ∃ before after, l = before ++ (k, a) :: after ∧ ∀ e ∈ before, e.1 ≠ k := by
  obtain ⟨before, ⟨j, b⟩, after, hl, hbefore, hb, -⟩ := List.filterMap_eq_cons_iff.mp h
  obtain ⟨hkey, hvalue⟩ := Option.ite_none_right_eq_some.mp hb
  have hentry : (j, b) = (k, a) := Prod.ext hkey (Option.some.inj hvalue)
  refine ⟨before, after, hentry ▸ hl, fun e he heq => ?_⟩
  have hnone := hbefore e he
  rw [if_pos heq] at hnone
  cases hnone

/-- Where no two values have one key, the value of a key is found by it. -/
theorem find?_key_eq_some_iff {key : α → κ} {l : List α} (h : (l.map key).Nodup) {a : α} {k : κ} :
    l.find? (fun b => key b = k) = some a ↔ a ∈ l ∧ key a = k := by
  constructor
  · intro hfind
    exact ⟨List.mem_of_find?_eq_some hfind, by simpa using List.find?_some hfind⟩
  · rintro ⟨ha, rfl⟩
    have hapart : l.Pairwise fun b c => key b ≠ key c := List.pairwise_map.mp h
    obtain ⟨before, after, rfl⟩ := List.append_of_mem ha
    obtain ⟨-, -, hacross⟩ := List.pairwise_append.mp hapart
    refine List.find?_eq_some_iff_append.mpr ⟨decide_eq_true rfl, before, after, rfl, ?_⟩
    intro b hb
    have hne : key b ≠ key a := hacross b hb a List.mem_cons_self
    simpa using hne

end Keyed

end RatingServer
