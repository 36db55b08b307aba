import RatingServer.Proofs.Decimal.Finite
import RatingServer.Proofs.Json.Parts
import RatingServer.Proofs.Table.Lookup
import RatingServer.Wire.Choice

/-!
# Formats that read what they write

A format is legible when the document of every written value reads as that value,
wherever the document comes from. The law also bounds what is written: how deep it
nests, that its integers fit the machine words, and that a value that was read
holds no floating-point number that did not stand in its document. Each way of
building a format keeps the law.
-/

namespace RatingServer.Wire

open Json (Document fitsWord)
open Decimal (Number)

/-- A mapped result is there when the result is. -/
theorem map_eq_ok {ε α β : Type} {r : Except ε α} {f : α → β} {b : β} :
    r.map f = .ok b ↔ ∃ a, r = .ok a ∧ f a = b := by
  cases r with
  | error e => simp [Except.map]
  | ok a => simp [Except.map]

/-- Two steps succeed when the first does and the second does with its result. -/
theorem bind_eq_ok {ε α β : Type} {r : Except ε α} {f : α → Except ε β} {b : β} :
    (r >>= f) = .ok b ↔ ∃ a, r = .ok a ∧ f a = .ok b := by
  cases r with
  | error e => simp [Bind.bind, Except.bind]
  | ok a => simp [Bind.bind, Except.bind]

/-- After a step that succeeds comes the next one. -/
theorem ok_bind {ε α β : Type} (a : α) (f : α → Except ε β) :
    ((.ok a : Except ε α) >>= f) = f a := rfl

/-- The floating-point number stands in a value to be written. -/
def Holds (j : Json) (x : Double) : Prop := Number.real x ∈ j.numbers

/-- The floating-point number stands in a document, itself or as an integer. -/
def Shows (d : Document) (x : Double) : Prop := ∃ n ∈ d.numbers, n.toDouble = x

/-- The law of a format whose values nest at most to a depth, and of which a reader
sees something of each value. -/
structure LegibleAs {α : Type} (f : Format α) (depth : Nat) (seen : α → α) : Prop where
  /-- What was written of a value is read as what is seen of the value. -/
  read_written : ∀ src a, f.ofDocument src (f.toJson a).toDocument = .ok (seen a)
  /-- What was written can be kept within the depth. -/
  kept_written : ∀ a n, depth ≤ n → (f.toJson a).toDocument.isKept n = true
  /-- The written integers fit. -/
  fits_written : ∀ a n, Number.integer n ∈ (f.toJson a).numbers → fitsWord n = true
  /-- What was read holds only numbers of the document. -/
  shown_read : ∀ src d a, f.ofDocument src d = .ok a → ∀ x, Holds (f.toJson a) x → Shows d x

/-- The law of a format of which a reader sees each value as it is. -/
abbrev Legible {α : Type} (f : Format α) (depth : Nat) : Prop := LegibleAs f depth id

/-- A greater depth will do as well. -/
theorem LegibleAs.mono {α : Type} {f : Format α} {m n : Nat} {seen : α → α}
    (h : LegibleAs f m seen) (hmn : m ≤ n) : LegibleAs f n seen where
  read_written := h.read_written
  kept_written a k hk := h.kept_written a k (by omega)
  fits_written := h.fits_written
  shown_read := h.shown_read

namespace Legible

variable {α β : Type} {f : Format α} {g : Format β} {m n : Nat}

/-- A format that writes one number, an integer, or no number at all holds no
floating-point number. -/
theorem not_holds_int {k : Int} {x : Double} : ¬ Holds (.num (.integer k)) x := by
  simp [Holds, Json.numbers]

/-- A format of values that stand for those of another. -/
theorem map (h : Legible f m) {make : α → β} {view : β → α}
    (hmake : ∀ b, make (view b) = b)
    (hview : ∀ a x, Holds (f.toJson (view (make a))) x → Holds (f.toJson a) x) :
    Legible (f.map make view) m where
  read_written src b := by
    have hread := h.read_written src (view b)
    simp only [Format.map, hread, Except.map, id_eq, hmake]
  kept_written b := h.kept_written (view b)
  fits_written b := h.fits_written (view b)
  shown_read src d b hb x hx := by
    obtain ⟨a, ha, rfl⟩ := map_eq_ok.mp hb
    exact h.shown_read src d a ha x (hview a x hx)

/-- Truth values. -/
theorem bool : Legible .bool 0 where
  read_written _ _ := rfl
  kept_written _ _ _ := rfl
  fits_written _ _ hn := by cases hn
  shown_read _ _ _ _ _ hx := by cases hx

/-- Texts. -/
theorem string : Legible .string 0 where
  read_written _ _ := rfl
  kept_written _ _ _ := rfl
  fits_written _ _ hn := by cases hn
  shown_read _ _ _ _ _ hx := by cases hx

/-- Floating-point numbers. -/
theorem float : Legible .float 0 where
  read_written _ _ := rfl
  kept_written _ _ _ := rfl
  fits_written _ _ hn := by
    simp only [Format.float, Json.real, Json.numbers, List.mem_singleton] at hn
    cases hn
  shown_read _ d y hy x hx := by
    have hxy : x = y := by
      simpa only [Holds, Format.float, Json.real, Json.numbers, List.mem_singleton,
        Number.real.injEq] using hx
    subst hxy
    unfold Format.float at hy
    dsimp only at hy
    split at hy
    · cases hy
      exact ⟨_, List.mem_singleton.mpr rfl, rfl⟩
    · cases hy
      exact ⟨_, List.mem_singleton.mpr rfl, rfl⟩
    · cases hy

/-- Natural numbers of at most 64 bits. -/
theorem unsigned {bits widest : Nat} {toNat : α → Nat} {ofNat : Nat → α} (hbits : bits ≤ 64)
    (hlt : ∀ a, toNat a < Nat.pow 2 bits) (hof : ∀ a, ofNat (toNat a) = a) :
    Legible (.unsigned bits widest toNat ofNat) 0 where
  read_written _ a := by
    have hbound : (toNat a : Int) ≤ Nat.pow 2 bits - 1 := by
      have := hlt a
      omega
    have hrange : (0 ≤ (toNat a : Int) && (toNat a : Int) ≤ Nat.pow 2 bits - 1) = true := by
      simp only [Bool.and_eq_true, decide_eq_true_eq]
      exact ⟨Int.natCast_nonneg _, hbound⟩
    simp only [Format.unsigned, Json.nat, Json.toDocument, Format.integerBetween, hrange, if_true,
      Except.map, Int.toNat_natCast, hof, id_eq]
  kept_written _ _ _ := rfl
  fits_written a k hk := by
    simp only [Format.unsigned, Json.nat, Json.numbers, List.mem_singleton,
      Number.integer.injEq] at hk
    have hle : Nat.pow 2 bits ≤ Decimal.significandBound := Nat.pow_le_pow_right (by decide) hbits
    have := hlt a
    simp only [Json.fitsWord, Bool.and_eq_true, decide_eq_true_eq, hk]
    omega
  shown_read _ _ _ _ _ hx := absurd hx not_holds_int

/-- Integers of at most 64 bits. -/
theorem signed {bits widest : Nat} {toInt : α → Int} {ofInt : Int → α} (hbits : bits ≤ 64)
    (hlow : ∀ a, -(Nat.pow 2 (bits - 1) : Nat) ≤ toInt a)
    (hhigh : ∀ a, toInt a < (Nat.pow 2 (bits - 1) : Nat))
    (hof : ∀ a, ofInt (toInt a) = a) : Legible (.signed bits widest toInt ofInt) 0 where
  read_written _ a := by
    have hlow' := hlow a
    have hhigh' : toInt a ≤ Nat.pow 2 (bits - 1) - 1 := by
      have := hhigh a
      omega
    have hrange : (-Nat.pow 2 (bits - 1) ≤ toInt a && toInt a ≤ Nat.pow 2 (bits - 1) - 1) =
        true := by
      simp only [Bool.and_eq_true, decide_eq_true_eq]
      exact ⟨hlow', hhigh'⟩
    simp only [Format.signed, Json.int, Json.toDocument, Format.integerBetween, hrange, if_true,
      Except.map, hof, id_eq]
  kept_written _ _ _ := rfl
  fits_written a k hk := by
    simp only [Format.signed, Json.int, Json.numbers, List.mem_singleton,
      Number.integer.injEq] at hk
    have hexp : bits - 1 ≤ 63 := by omega
    have hle : Nat.pow 2 (bits - 1) ≤ Decimal.significandBound / 2 :=
      Nat.pow_le_pow_right (n := 2) (by decide) hexp
    have := hlow a
    have := hhigh a
    simp only [Json.fitsWord, Bool.and_eq_true, decide_eq_true_eq, hk]
    omega
  shown_read _ _ _ _ _ hx := absurd hx not_holds_int

/-- Natural numbers of 32 bits. -/
theorem uint32 : Legible .uint32 0 :=
  unsigned (by decide) (fun a => a.toNat_lt) fun _ => UInt32.ofNat_toNat

/-- Natural numbers of 64 bits. -/
theorem uint64 : Legible .uint64 0 :=
  unsigned (by decide) (fun a => a.toNat_lt) fun _ => UInt64.ofNat_toNat

/-- Integers of 32 bits. -/
theorem int32 : Legible .int32 0 :=
  signed (by decide) (fun a => a.le_toInt) (fun a => a.toInt_lt) fun a => Int32.ofInt_toInt a

/-- Integers of 64 bits. -/
theorem int64 : Legible .int64 0 :=
  signed (by decide) (fun a => a.le_toInt) (fun a => a.toInt_lt) fun a => Int64.ofInt_toInt a

/-- Values that may be absent, if no value is written as null. -/
theorem option (h : Legible f m) (hnull : ∀ a, f.toJson a ≠ .null) : Legible f.option m where
  read_written src a := by
    cases a with
    | none => rfl
    | some a =>
      have hread := h.read_written src a
      have hdoc : (f.toJson a).toDocument ≠ .null := by
        intro heq
        cases hj : f.toJson a with
        | null => exact hnull a hj
        | _ => simp [hj, Json.toDocument] at heq
      show f.option.ofDocument src (f.toJson a).toDocument = .ok (some a)
      unfold Format.option
      dsimp only
      split
      · exact absurd ‹_› hdoc
      · rw [hread]
        rfl
  kept_written a := by
    cases a with
    | none => exact fun _ _ => rfl
    | some a => exact h.kept_written a
  fits_written a := by
    cases a with
    | none => exact fun _ hk => by cases hk
    | some a => exact h.fits_written a
  shown_read src d a ha x hx := by
    cases a with
    | none => cases hx
    | some a =>
      rw [Format.option] at ha
      dsimp only at ha
      split at ha
      · cases ha
      · obtain ⟨b, hb, hba⟩ := map_eq_ok.mp ha
        cases hba
        exact h.shown_read src _ a hb x hx

/-- The items of a list are read one by one. -/
theorem readItems_map {read : Document → Except DecodeFault α} {l : List α} {doc : α → Document}
    (h : ∀ a ∈ l, read (doc a) = .ok a) : Format.readItems read (l.map doc) = .ok l := by
  induction l with
  | nil => rfl
  | cons a l ih =>
    rw [List.map_cons, Format.readItems, h a List.mem_cons_self, ok_bind,
      ih fun b hb => h b (List.mem_cons_of_mem _ hb), ok_bind]
    rfl

/-- Every item that was read was read of a document. -/
theorem mem_of_readItems {read : Document → Except DecodeFault α} {ds : List Document}
    {l : List α} (h : Format.readItems read ds = .ok l) :
    ∀ a ∈ l, ∃ d ∈ ds, read d = .ok a := by
  induction ds generalizing l with
  | nil =>
    cases h
    exact fun a ha => by cases ha
  | cons d ds ih =>
    rw [Format.readItems] at h
    obtain ⟨a, ha, h⟩ := bind_eq_ok.mp h
    obtain ⟨as, has, h⟩ := bind_eq_ok.mp h
    cases h
    intro b hb
    rcases List.mem_cons.mp hb with rfl | hb
    · exact ⟨d, List.mem_cons_self, ha⟩
    · obtain ⟨e, he, hread⟩ := ih has b hb
      exact ⟨e, List.mem_cons_of_mem _ he, hread⟩

/-- Lists. -/
theorem list (h : Legible f m) : Legible f.list (m + 1) where
  read_written src l := by
    have hitems : Format.readItems (f.ofDocument src) (l.map fun a => (f.toJson a).toDocument) =
        .ok l := readItems_map fun a _ => h.read_written src a
    show f.list.ofDocument src (Json.arr (l.map f.toJson)).toDocument = .ok l
    rw [Json.toDocument, Json.toDocuments_eq, List.map_map]
    show (Format.readItems (f.ofDocument src) (l.map fun a => (f.toJson a).toDocument) >>= _) = _
    rw [hitems, ok_bind]
    rfl
  kept_written l n hn := by
    show (Json.arr (l.map f.toJson)).toDocument.isKept n = true
    rw [Json.toDocument, Document.isKept, Json.toDocuments_eq, List.map_map, Bool.and_eq_true,
      Bool.and_eq_true, decide_eq_true_eq, Json.itemsKept_iff]
    refine ⟨⟨by omega, rfl⟩, fun d hd => ?_⟩
    obtain ⟨a, -, rfl⟩ := List.mem_map.mp hd
    exact h.kept_written a (n - 1) (by omega)
  fits_written l k hk := by
    obtain ⟨j, hj, hk⟩ := Json.mem_numbers_arr.mp hk
    obtain ⟨a, -, rfl⟩ := List.mem_map.mp hj
    exact h.fits_written a k hk
  shown_read src d l hl x hx := by
    obtain ⟨j, hj, hx⟩ := Json.mem_numbers_arr.mp hx
    obtain ⟨a, ha, rfl⟩ := List.mem_map.mp hj
    unfold Format.list at hl
    dsimp only at hl
    split at hl
    · rename_i items whole
      obtain ⟨as, has, hl⟩ := bind_eq_ok.mp hl
      split at hl
      · cases hl
        obtain ⟨d, hd, hread⟩ := mem_of_readItems has a ha
        obtain ⟨n, hn, hnx⟩ := h.shown_read src d a hread x hx
        exact ⟨n, Json.Document.mem_numbers_arr hd hn, hnx⟩
      · cases hl
    · cases hl

/-- The entries of a table are read one by one. -/
theorem readEntries_map {read : Document → Except DecodeFault α} (doc : α → Document)
    {l : List (String × α)} (h : ∀ e ∈ l, read (doc e.2) = .ok e.2) :
    Format.readEntries read (l.map fun e => (some e.1, doc e.2)) = .ok l := by
  induction l with
  | nil => rfl
  | cons e l ih =>
    rw [List.map_cons, Format.readEntries, h e List.mem_cons_self, ok_bind,
      ih fun b hb => h b (List.mem_cons_of_mem _ hb), ok_bind]
    rfl

/-- Every entry that was read was read of a member. -/
theorem mem_of_readEntries {read : Document → Except DecodeFault α}
    {ms : List (Option String × Document)} {l : List (String × α)}
    (h : Format.readEntries read ms = .ok l) :
    ∀ e ∈ l, ∃ m ∈ ms, read m.2 = .ok e.2 := by
  induction ms generalizing l with
  | nil =>
    cases h
    exact fun e he => by cases he
  | cons m ms ih =>
    obtain ⟨k, d⟩ := m
    cases k with
    | none => cases h
    | some k =>
      rw [Format.readEntries] at h
      obtain ⟨a, ha, h⟩ := bind_eq_ok.mp h
      obtain ⟨es, hes, h⟩ := bind_eq_ok.mp h
      cases h
      intro e he
      rcases List.mem_cons.mp he with rfl | he
      · exact ⟨_, List.mem_cons_self, ha⟩
      · obtain ⟨m, hm, hread⟩ := ih hes e he
        exact ⟨m, List.mem_cons_of_mem _ hm, hread⟩

/-- Tables of values under texts. -/
theorem table (h : Legible f m) : Legible f.table (m + 1) where
  read_written src t := by
    have hentries : Format.readEntries (f.ofDocument src)
        (t.entries.map fun e => (some e.1, (f.toJson e.2).toDocument)) = .ok t.entries :=
      readEntries_map (fun a => (f.toJson a).toDocument) fun e _ => h.read_written src e.2
    show f.table.ofDocument src (Json.obj (t.entries.map _)).toDocument = .ok t
    rw [Json.toDocument, Json.toMembers_eq, List.map_map]
    show (Format.readEntries (f.ofDocument src)
      (t.entries.map fun e => (some e.1, (f.toJson e.2).toDocument)) >>= _) = _
    rw [hentries, ok_bind, if_pos rfl, Table.ofList_entries]
    rfl
  kept_written t n hn := by
    show (Json.obj (t.entries.map _)).toDocument.isKept n = true
    rw [Json.toDocument, Document.isKept, Json.toMembers_eq, List.map_map, Bool.and_eq_true,
      Bool.and_eq_true, decide_eq_true_eq, Json.membersKept_iff]
    refine ⟨⟨by omega, rfl⟩, fun d hd => ?_⟩
    obtain ⟨e, -, rfl⟩ := List.mem_map.mp hd
    exact ⟨rfl, h.kept_written e.2 (n - 1) (by omega)⟩
  fits_written t k hk := by
    obtain ⟨j, hj, hk⟩ := Json.mem_numbers_obj.mp hk
    obtain ⟨e, -, rfl⟩ := List.mem_map.mp hj
    exact h.fits_written e.2 k hk
  shown_read src d t ht x hx := by
    obtain ⟨j, hj, hvalue⟩ := Json.mem_numbers_obj.mp hx
    obtain ⟨e, he, rfl⟩ := List.mem_map.mp hj
    unfold Format.table at ht
    dsimp only at ht
    split at ht
    · rename_i members whole
      obtain ⟨es, hes, ht⟩ := bind_eq_ok.mp ht
      split at ht
      · cases ht
        obtain ⟨d, hd, hread⟩ := mem_of_readEntries hes e (Table.mem_of_mem_entries_ofList he)
        obtain ⟨n, hn, hnx⟩ := h.shown_read src d.2 e.2 hread x hvalue
        exact ⟨n, Json.Document.mem_numbers_obj hd hn, hnx⟩
      · cases ht
    · cases ht

/-- Pairs. -/
theorem pair (hf : Legible f m) (hg : Legible g m) : Legible (f.pair g) (m + 1) where
  read_written src p := by
    have ha := hf.read_written src p.1
    have hb := hg.read_written src p.2
    show (f.pair g).ofDocument src (Json.arr [f.toJson p.1, g.toJson p.2]).toDocument = .ok p
    rw [Json.toDocument, Json.toDocuments_eq, List.map_cons, List.map_cons, List.map_nil]
    simp only [Format.pair, ha, hb, ok_bind, if_true]
    rfl
  kept_written p n hn := by
    show (Json.arr [f.toJson p.1, g.toJson p.2]).toDocument.isKept n = true
    have ha := hf.kept_written p.1 (n - 1) (by omega)
    have hb := hg.kept_written p.2 (n - 1) (by omega)
    have hne : n ≠ 0 := by omega
    simp [Json.toDocument, Json.toDocuments, Document.isKept, Json.itemsKept, ha, hb, hne]
  fits_written p k hk := by
    obtain ⟨j, hj, hk⟩ := Json.mem_numbers_arr.mp hk
    simp only [List.mem_cons, List.not_mem_nil, or_false] at hj
    rcases hj with rfl | rfl
    · exact hf.fits_written p.1 k hk
    · exact hg.fits_written p.2 k hk
  shown_read src d p hp x hx := by
    obtain ⟨j, hj, hx⟩ := Json.mem_numbers_arr.mp hx
    simp only [List.mem_cons, List.not_mem_nil, or_false] at hj
    unfold Format.pair at hp
    dsimp only at hp
    split at hp
    · rename_i items whole
      split at hp
      · cases hp
      · obtain ⟨_, _, hp⟩ := bind_eq_ok.mp hp
        cases hp
      · rename_i d e surplus
        obtain ⟨a, ha, hp⟩ := bind_eq_ok.mp hp
        obtain ⟨b, hb, hp⟩ := bind_eq_ok.mp hp
        have hpair : (a, b) = p := by
          split at hp
          · cases hp
          · split at hp
            · exact Except.ok.inj hp
            · cases hp
        subst hpair
        rcases hj with rfl | rfl
        · obtain ⟨n, hn, hnx⟩ := hf.shown_read src d a ha x hx
          exact ⟨n, Json.Document.mem_numbers_arr List.mem_cons_self hn, hnx⟩
        · obtain ⟨n, hn, hnx⟩ := hg.shown_read src e b hb x hx
          exact ⟨n, Json.Document.mem_numbers_arr (by simp) hn, hnx⟩
    · cases hp

end Legible

end RatingServer.Wire
