import RatingServer.Proofs.Json.Building
import RatingServer.Proofs.Json.Parts

/-!
# What it takes to keep a document

A document can be kept within a number of levels if three things come together: it was read
to its end, its lists and records nest within these levels, and its texts and numbers
denote something. The first one is so for every well-formed text. The last one is not: a
numeral may be too large for a number, and a text may have half of a surrogate pair.
-/

namespace RatingServer.Json

mutual

/-- The lists and records of a value nest within a number of levels. -/
def Document.nestsWithin (depth : Nat) : Document → Bool
  | .null | .bool _ | .num _ | .str _ | .broken => true
  | .arr items _ => depth ≠ 0 && itemsNestWithin (depth - 1) items
  | .obj members _ => depth ≠ 0 && membersNestWithin (depth - 1) members

/-- Those of every item do. -/
def itemsNestWithin (depth : Nat) : List Document → Bool
  | [] => true
  | d :: ds => d.nestsWithin depth && itemsNestWithin depth ds

/-- Those of every value of a member do. -/
def membersNestWithin (depth : Nat) : List (Option String × Document) → Bool
  | [] => true
  | (_, d) :: ms => d.nestsWithin depth && membersNestWithin depth ms

end

mutual

/-- Every text and every number of a value denotes something, the keys of its records
included. -/
def Document.denotes : Document → Bool
  | .null | .bool _ | .broken => true
  | .num n => n.isSome
  | .str s => s.isSome
  | .arr items _ => itemsDenote items
  | .obj members _ => membersDenote members

/-- Those of every item do. -/
def itemsDenote : List Document → Bool
  | [] => true
  | d :: ds => d.denotes && itemsDenote ds

/-- Every key does, and those of every value of a member do. -/
def membersDenote : List (Option String × Document) → Bool
  | [] => true
  | (k, d) :: ms => k.isSome && d.denotes && membersDenote ms

end

mutual

/-- What can be kept is whole, nests within the levels, and denotes something. -/
theorem Document.isKept_eq (depth : Nat) : (d : Document) →
    d.isKept depth = (d.isWhole && d.nestsWithin depth && d.denotes)
  | .null | .bool _ | .num _ | .str _ => by
    rw [Document.isKept, Document.isWhole, Document.nestsWithin, Document.denotes, Bool.and_self,
      Bool.true_and]
  | .broken => by rw [Document.isKept, Document.isWhole, Bool.false_and, Bool.false_and]
  | .arr items whole => by
    rw [Document.isKept, Document.isWhole, Document.nestsWithin, Document.denotes, itemsKept_eq]
    ac_rfl
  | .obj members whole => by
    rw [Document.isKept, Document.isWhole, Document.nestsWithin, Document.denotes, membersKept_eq]
    ac_rfl

/-- So it is with items. -/
theorem itemsKept_eq (depth : Nat) : (ds : List Document) →
    itemsKept depth ds = (itemsWhole ds && itemsNestWithin depth ds && itemsDenote ds)
  | [] => by rw [itemsKept, itemsWhole, itemsNestWithin, itemsDenote, Bool.and_self, Bool.and_self]
  | d :: ds => by
    rw [itemsKept, itemsWhole, itemsNestWithin, itemsDenote, Document.isKept_eq, itemsKept_eq]
    ac_rfl

/-- So it is with members. -/
theorem membersKept_eq (depth : Nat) : (ms : List (Option String × Document)) →
    membersKept depth ms = (membersWhole ms && membersNestWithin depth ms && membersDenote ms)
  | [] => by
    rw [membersKept, membersWhole, membersNestWithin, membersDenote, Bool.and_self, Bool.and_self]
  | (k, d) :: ms => by
    rw [membersKept, membersWhole, membersNestWithin, membersDenote, Document.isKept_eq,
      membersKept_eq]
    ac_rfl

end

/-- Items are whole when each of them is. -/
theorem itemsWhole_iff {ds : List Document} :
    itemsWhole ds = true ↔ ∀ d ∈ ds, d.isWhole = true := by
  induction ds with
  | nil => simp [itemsWhole]
  | cons d ds ih => simp [itemsWhole, ih]

/-- Members are whole when each value is. -/
theorem membersWhole_iff {ms : List (Option String × Document)} :
    membersWhole ms = true ↔ ∀ m ∈ ms, m.2.isWhole = true := by
  induction ms with
  | nil => simp [membersWhole]
  | cons m ms ih =>
    obtain ⟨k, d⟩ := m
    simp [membersWhole, ih]

/-- Members denote something when every key is a text and every value denotes something. -/
theorem membersDenote_iff {ms : List (Option String × Document)} :
    membersDenote ms = true ↔ ∀ m ∈ ms, m.1.isSome = true ∧ m.2.denotes = true := by
  induction ms with
  | nil => simp [membersDenote]
  | cons m ms ih =>
    obtain ⟨k, d⟩ := m
    simp [membersDenote, ih]

/-- A whole list or record is made of whole parts. Nothing is asked of a text that breaks
off. -/
theorem Document.inherited_isWhole : Inherited (·.isWhole = true) fun _ => True where
  null := by rw [Document.isWhole]
  bool _ := by rw [Document.isWhole]
  str _ := by rw [Document.isWhole]
  arr hds := by rw [Document.isWhole, itemsWhole_iff.mpr hds, Bool.and_self]
  obj hms := by rw [Document.isWhole, membersWhole_iff.mpr hms, Bool.and_self]
  of_whole _ := trivial
  broken := trivial
  arr_broken _ := trivial
  obj_broken _ := trivial

/-- The document of a well-formed text was read to its end. -/
theorem Document.isWhole_of_parse {cs : List Char} {d : Document}
    (h : Document.parse cs = (d, true)) : d.isWhole = true := by
  have hnumbers : ∀ t ∈ tokensOf cs, ∀ n, t = .num n → (Document.num n).isWhole = true :=
    fun _ _ _ _ => by rw [Document.isWhole]
  have hclean := (inherited_isWhole.parse hnumbers).2
  rw [h] at hclean
  exact hclean rfl

end RatingServer.Json
