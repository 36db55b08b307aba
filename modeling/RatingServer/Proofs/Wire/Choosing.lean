import RatingServer.Proofs.Wire.Legible

/-!
# Choices that read what they write

A choice is legible when every value is written as one of the variants, under a
name that no other variant has, and every variant reads its payload back.
-/

namespace RatingServer.Wire

open Json (Document)
open Decimal (Number)

variable {α β : Type}

/-- What was chosen for a value stands in a list of variants, and a reader sees the
second value in it. -/
inductive Chosen.Written (variants : List (Variant α)) (depth : Nat) : Chosen → α → Prop
  /-- A variant without payload. -/
  | bareName {place : Nat} {name : String} {a : α}
    (h : variants[place]? = some (.bareName name a)) : Written variants depth (.bareName place) a
  /-- A variant with the payload of a legible format. -/
  | payload {β : Type} {place : Nat} {name : String} {f : Format β} {make : β → α}
    {seen : β → β} {b : β}
    (h : variants[place]? = some (.payload name f make)) (hf : LegibleAs f depth seen) :
    Written variants depth (.of place f b) (make (seen b))

/-- A variant answers only values whose written payload it has read. -/
structure Variant.Shown (chosen : α → Chosen) (v : Variant α) : Prop where
  /-- A bare name has no payload. -/
  bare : ∀ a, v.bare = some a → (chosen a).payload = none
  /-- The numbers of a payload stand in its document. -/
  payload : ∀ src d a, v.ofPayload src d = .ok a →
    ∀ p, (chosen a).payload = some p → ∀ x, Holds p.1 x → Shows d x

/-- A variant without payload shows nothing. -/
theorem Variant.Shown.of_bareName {chosen : α → Chosen} {name : String} {a : α}
    (h : (chosen a).payload = none) : Shown chosen (.bareName name a) where
  bare b hb := by
    cases hb
    exact h
  payload src d b hb p hp := by
    have hab : a = b := by
      simp only [bareName] at hb
      unfold noPayload at hb
      split at hb
      · exact Except.ok.inj hb
      · exact Except.ok.inj hb
      · cases hb
    rw [← hab, h] at hp
    cases hp

/-- A variant with a payload shows what its format shows. -/
theorem Variant.Shown.of_payload {chosen : α → Chosen} {name : String} {f : Format β}
    {make : β → α} {seen : β → β} {depth : Nat} (hf : LegibleAs f depth seen)
    (h : ∀ b, ∃ place, chosen (make b) = .of place f b) :
    Shown chosen (.payload name f make) where
  bare a ha := by cases ha
  payload src d a ha p hp x hx := by
    obtain ⟨b, hb, rfl⟩ := map_eq_ok.mp ha
    obtain ⟨place, hplace⟩ := h b
    rw [hplace] at hp
    cases hp
    exact hf.shown_read src d b hb x hx

/-- Of items with distinct names, each is found by its name. -/
theorem find?_name {name : α → String} {l : List α} (hnames : (l.map name).Nodup) {place : Nat}
    {a : α} (h : l[place]? = some a) : l.find? (fun b => name b = name a) = some a := by
  induction l generalizing place with
  | nil => cases h
  | cons b l ih =>
    rw [List.map_cons, List.nodup_cons] at hnames
    cases place with
    | zero =>
      cases h
      simp
    | succ place =>
      have hmem : a ∈ l := List.mem_of_getElem? h
      have hne : ¬ name b = name a := fun heq =>
        hnames.1 (heq ▸ List.mem_map_of_mem (f := name) hmem)
      rw [List.find?_cons_of_neg (by simpa using hne)]
      exact ih hnames.2 h

/-- A record with one member is read by the variant of its name. -/
theorem readChoice_member {variants : List (Variant α)} {v : Variant α}
    (hfind : variants.find? (·.name = v.name) = some v) {a : α} {d : Document} {src : Source}
    (hread : v.ofPayload src d = .ok a) :
    Format.readChoice variants src (.obj [(some v.name, d)] true) = .ok a := by
  cases src with
  | stream =>
    simp only [Format.readChoice, hfind, hread, ok_bind]
    rfl
  | kept => simp only [Format.readChoice, hfind, hread]
  | value => simp only [Format.readChoice, hfind, hread]
  | settings => simp only [Format.readChoice, hfind, hread]

/-- What is read of a record is read by a variant of one of its members. -/
theorem mem_of_readChoice {variants : List (Variant α)} {src : Source} {d : Document} {a : α}
    (h : Format.readChoice variants src d = .ok a) :
    (∃ v ∈ variants, v.bare = some a) ∨
      ∃ v ∈ variants, ∃ ms whole, d = .obj ms whole ∧
        ∃ m ∈ ms, v.ofPayload src m.2 = .ok a := by
  unfold Format.readChoice at h
  split at h
  · split at h
    · cases h
    · rename_i v hfind
      have hv := List.mem_of_find?_eq_some hfind
      split at h
      · rename_i b hb
        cases h
        exact .inl ⟨v, hv, hb⟩
      · cases h
  · rename_i src members whole
    split at h
    · cases h
    · split at h
      · cases h
      · rename_i v hfind
        obtain ⟨b, hb, h⟩ := bind_eq_ok.mp h
        split at h
        · cases h
          exact .inr ⟨v, List.mem_of_find?_eq_some hfind, _, _, rfl, _, List.mem_cons_self, hb⟩
        · cases h
    · split at h
      · cases h
      · rename_i v hfind
        exact .inr ⟨v, List.mem_of_find?_eq_some hfind, _, _, rfl, _, List.mem_cons_self, h⟩
    · cases h
    · cases h
    · cases h
  · cases h
  · cases h
  · cases h
  · cases h

/-- A choice is written as a text or as a record. -/
theorem choice_isMarked (variants : List (Variant α)) (chosen : α → Chosen) (a : α) :
    ((Format.choice variants chosen).toJson a).isMarked = true := by
  simp only [Format.choice]
  split <;> rfl

/-- A choice of variants with distinct names, each legible. -/
theorem LegibleAs.choice {variants : List (Variant α)} {chosen : α → Chosen} {seen : α → α}
    {depth : Nat} (hnames : (variants.map (·.name)).Nodup)
    (hwritten : ∀ a, Chosen.Written variants depth (chosen a) (seen a))
    (hshown : ∀ v ∈ variants, v.Shown chosen) :
    LegibleAs (.choice variants chosen) (depth + 1) seen where
  read_written src a := by
    have h := hwritten a
    simp only [Format.choice]
    generalize chosen a = c at h
    generalize seen a = b at h
    cases h with
    | bareName h =>
      have hfind := find?_name hnames h
      simp only [Chosen.bareName, h, Option.elim_some, Json.toDocument, Format.readChoice, hfind]
      rfl
    | payload h hf =>
      have hfind := find?_name hnames h
      simp only [Chosen.of, h, Option.elim_some, Json.toDocument, Json.toMembers]
      refine readChoice_member hfind ?_
      simp only [Variant.payload, hf.read_written, Except.map]
  kept_written a n hn := by
    have h := hwritten a
    simp only [Format.choice]
    generalize chosen a = c at h
    generalize seen a = b at h
    cases h with
    | bareName h => rfl
    | payload h hf =>
      rename_i f _ _ b
      have hkept := hf.kept_written b (n - 1) (by omega)
      have hne : n ≠ 0 := by omega
      simp [Chosen.of, Json.toDocument, Json.toMembers, Document.isKept, Json.membersKept, hkept,
        hne]
  fits_written a k hk := by
    have h := hwritten a
    simp only [Format.choice] at hk
    generalize chosen a = c at h hk
    generalize seen a = b at h
    cases h with
    | bareName h => cases hk
    | payload h hf =>
      obtain ⟨j, hj, hk⟩ := Json.mem_numbers_obj.mp hk
      rw [List.mem_singleton.mp hj] at hk
      exact hf.fits_written _ k hk
  shown_read src d a ha x hx := by
    have hpayload : ∃ p, (chosen a).payload = some p ∧ Holds p.1 x := by
      simp only [Format.choice] at hx
      split at hx
      · cases hx
      · rename_i p hp
        obtain ⟨j, hj, hx⟩ := Json.mem_numbers_obj.mp hx
        rw [List.mem_singleton.mp hj] at hx
        exact ⟨_, hp, hx⟩
    obtain ⟨p, hp, hx⟩ := hpayload
    rcases mem_of_readChoice ha with ⟨v, hv, hbare⟩ | ⟨v, hv, ms, whole, rfl, m, hm, hread⟩
    · rw [(hshown v hv).bare a hbare] at hp
      cases hp
    · obtain ⟨n, hn, hnx⟩ := (hshown v hv).payload src m.2 a hread p hp x hx
      exact ⟨n, Json.Document.mem_numbers_obj hm hn, hnx⟩

/-- A choice of bare names, if they are distinct and there is one for each value. -/
theorem Legible.names [DecidableEq α] {all : List α} {name : α → String}
    (hnames : (all.map name).Nodup) (hall : ∀ a, a ∈ all) : Legible (.names all name) 1 := by
  refine LegibleAs.choice ?_ (fun a => ?_) fun v hv => ?_
  · rw [List.map_map]
    exact hnames
  · refine .bareName (?_ : _ = some (Variant.bareName (name a) a))
    have hlt : all.idxOf a < all.length := List.idxOf_lt_length_of_mem (hall a)
    rw [List.getElem?_map, List.getElem?_eq_getElem hlt, List.getElem_idxOf hlt]
    rfl
  · obtain ⟨a, -, rfl⟩ := List.mem_map.mp hv
    exact .of_bareName rfl

end RatingServer.Wire
