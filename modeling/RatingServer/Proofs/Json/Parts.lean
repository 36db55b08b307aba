import RatingServer.Proofs.Json.Reading

/-!
# Parts of data values and documents

What holds of a list or record is told by its parts: its document, its numbers and
whether it can be kept are those of its items or of the values of its members.
-/

namespace RatingServer.Json

open Decimal (Number)

/-- The documents of some data values, one by one. -/
theorem toDocuments_eq (js : List Json) : toDocuments js = js.map toDocument := by
  induction js with
  | nil => rw [toDocuments, List.map_nil]
  | cons j js ih => rw [toDocuments, ih, List.map_cons]

/-- The members of a document, one by one. -/
theorem toMembers_eq (ms : List (String × Json)) :
    toMembers ms = ms.map fun m => (some m.1, m.2.toDocument) := by
  induction ms with
  | nil => rw [toMembers, List.map_nil]
  | cons m ms ih =>
    obtain ⟨k, j⟩ := m
    rw [toMembers, ih, List.map_cons]

/-- What the members of a record read as, one by one. -/
theorem membersAsRead_eq_map (ms : List (String × Json)) :
    membersAsRead ms = ms.map fun m => (some m.1, m.2.asRead) := by
  induction ms with
  | nil => rw [membersAsRead, List.map_nil]
  | cons m ms ih =>
    obtain ⟨k, j⟩ := m
    rw [membersAsRead, ih, List.map_cons]

/-- The data values of some items, one by one. -/
theorem itemsToJson_eq (ds : List Document) : itemsToJson ds = ds.map Document.toJson := by
  induction ds with
  | nil => rw [itemsToJson, List.map_nil]
  | cons d ds ih => rw [itemsToJson, ih, List.map_cons]

/-- The data values of some members, one by one. -/
theorem membersToJson_eq (ms : List (Option String × Document)) :
    membersToJson ms = ms.map fun m => (m.1.getD "", m.2.toJson) := by
  induction ms with
  | nil => rw [membersToJson, List.map_nil]
  | cons m ms ih =>
    obtain ⟨k, d⟩ := m
    rw [membersToJson, ih, List.map_cons]

/-- A number of some items is a number of one of them. -/
theorem mem_itemNumbers {n : Number} {js : List Json} :
    n ∈ itemNumbers js ↔ ∃ j ∈ js, n ∈ j.numbers := by
  induction js with
  | nil => simp [itemNumbers]
  | cons j js ih => simp [itemNumbers, ih]

/-- A number of some members is a number of the value of one of them. -/
theorem mem_memberNumbers {n : Number} {ms : List (String × Json)} :
    n ∈ memberNumbers ms ↔ ∃ m ∈ ms, n ∈ m.2.numbers := by
  induction ms with
  | nil => simp [memberNumbers]
  | cons m ms ih =>
    obtain ⟨k, j⟩ := m
    simp [memberNumbers, ih]

/-- A number of a list is a number of one of its items. -/
theorem mem_numbers_arr {n : Number} {js : List Json} :
    n ∈ (Json.arr js).numbers ↔ ∃ j ∈ js, n ∈ j.numbers := by
  rw [numbers, mem_itemNumbers]

/-- A number of a record is a number of the value of one of its members. -/
theorem mem_numbers_obj {n : Number} {ms : List (String × Json)} :
    n ∈ (Json.obj ms).numbers ↔ ∃ m ∈ ms, n ∈ m.2.numbers := by
  rw [numbers, mem_memberNumbers]

/-- Items can be kept when each of them can. -/
theorem itemsKept_iff {depth : Nat} {ds : List Document} :
    itemsKept depth ds = true ↔ ∀ d ∈ ds, d.isKept depth = true := by
  induction ds with
  | nil => simp [itemsKept]
  | cons d ds ih => simp [itemsKept, ih]

/-- Members can be kept when each key is a text and each value can be kept. -/
theorem membersKept_iff {depth : Nat} {ms : List (Option String × Document)} :
    membersKept depth ms = true ↔
      ∀ m ∈ ms, m.1.isSome = true ∧ m.2.isKept depth = true := by
  induction ms with
  | nil => simp [membersKept]
  | cons m ms ih =>
    obtain ⟨k, d⟩ := m
    simp [membersKept, ih]

/-- The numbers that stand in a document and denote something. -/
def Document.numbers (d : Document) : List Number := d.toJson.numbers

/-- A number of an item of a list stands in the list. -/
theorem Document.mem_numbers_arr {n : Number} {ds : List Document} {whole : Bool}
    {d : Document} (hd : d ∈ ds) (hn : n ∈ d.numbers) : n ∈ (Document.arr ds whole).numbers := by
  rw [Document.numbers, toJson, Json.mem_numbers_arr, itemsToJson_eq]
  exact ⟨d.toJson, List.mem_map_of_mem hd, hn⟩

/-- A number of the value of a member stands in the record. -/
theorem Document.mem_numbers_obj {n : Number} {ms : List (Option String × Document)}
    {whole : Bool} {m : Option String × Document} (hm : m ∈ ms) (hn : n ∈ m.2.numbers) :
    n ∈ (Document.obj ms whole).numbers := by
  rw [Document.numbers, toJson, Json.mem_numbers_obj, membersToJson_eq]
  exact ⟨(m.1.getD "", m.2.toJson), List.mem_map_of_mem hm, hn⟩

end RatingServer.Json
