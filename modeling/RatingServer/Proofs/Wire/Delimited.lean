import RatingServer.Proofs.Table.Lookup
import RatingServer.Proofs.Wire.Counting
import RatingServer.Snapshot
import RatingServer.Wire.Choice

/-!
# Formats whose bytes end by themselves

The bytes of a format are delimited when every value is read from its bytes
whatever follows them, and what follows is left. Lengths are counts of at most 64
bits, so the law speaks of values with fewer bytes than such a count can tell. Each
way of building a format keeps the law. The bytes of a record are those of its fields, so
the law of the fields is that of the format which they make.
-/

namespace RatingServer.Wire

/-- The law of the bytes of a format of which a reader sees something of each
value. -/
structure DelimitedAs {α : Type} (f : Format α) (seen : α → α) : Prop where
  /-- What was written of a value is read as what is seen of the value. -/
  get_put : ∀ a rest, (f.put a).length < UInt64.size → f.get (f.put a ++ rest) = some (seen a, rest)
  /-- Every value has a byte. -/
  put_pos : ∀ a, 0 < (f.put a).length

/-- The law of the bytes of a format whose values are read back whole. -/
abbrev Delimited {α : Type} (f : Format α) : Prop := DelimitedAs f id

variable {α β : Type} {f : Format α} {g : Format β} {seen : α → α} {seen' : β → β}

namespace DelimitedAs

/-- Values that stand for those of a delimited format. -/
theorem map (h : DelimitedAs f seen) {make : α → β} {view : β → α}
    (hmake : ∀ b, make (seen (view b)) = seen' b) : DelimitedAs (f.map make view) seen' where
  get_put b rest hlength := by
    show (f.get (f.put (view b) ++ rest)).map _ = _
    rw [h.get_put (view b) rest hlength, Option.map_some, hmake]
  put_pos b := h.put_pos (view b)

/-- Truth values. -/
theorem bool : Delimited .bool where
  get_put b rest _ := by cases b <;> rfl
  put_pos _ := Nat.succ_pos 0

/-- Natural numbers of 16, 32 or 64 bits. -/
theorem unsigned {bits widest : Nat} {toNat : α → Nat} {ofNat : Nat → α}
    (hrange : ∀ a, widest = 2 ∧ toNat a < UInt16.size ∨ widest = 4 ∧ toNat a < UInt32.size ∨
      widest = 8 ∧ toNat a < UInt64.size)
    (hof : ∀ a, ofNat (toNat a) = a) : Delimited (.unsigned bits widest toNat ofNat) where
  get_put a rest _ := by
    show (getCount widest (putCount (toNat a) ++ rest)).map _ = _
    rw [getCount_putCount (hrange a), Option.map_some, hof, id_eq]
  put_pos a := length_putCount_pos _

/-- Integers of 32 or 64 bits. -/
theorem signed {bits widest : Nat} {toInt : α → Int} {ofInt : Int → α}
    (hrange : ∀ a, widest = 4 ∧ fold (toInt a) < UInt32.size ∨
      widest = 8 ∧ fold (toInt a) < UInt64.size)
    (hof : ∀ a, ofInt (toInt a) = a) : Delimited (.signed bits widest toInt ofInt) where
  get_put a rest _ := by
    show (getCount widest (putCount (fold (toInt a)) ++ rest)).map _ = _
    rw [getCount_putCount (.inr (hrange a)), Option.map_some, unfold_fold, hof, id_eq]
  put_pos a := length_putCount_pos _

/-- Natural numbers of 64 bits. -/
theorem uint64 : Delimited .uint64 :=
  unsigned (fun a => .inr (.inr ⟨rfl, a.toNat_lt⟩)) fun _ => UInt64.ofNat_toNat

/-- Integers of 32 bits. -/
theorem int32 : Delimited .int32 :=
  signed (fun a => .inl ⟨rfl, fold_lt (@Int32.le_toInt a) a.toInt_lt⟩)
    fun a => Int32.ofInt_toInt a

/-- Integers of 64 bits. -/
theorem int64 : Delimited .int64 :=
  signed (fun a => .inr ⟨rfl, fold_lt (@Int64.le_toInt a) a.toInt_lt⟩)
    fun a => Int64.ofInt_toInt a

/-- Floating-point numbers, bit by bit. -/
theorem float : Delimited .float where
  get_put x rest _ := by
    have hword : x.bits.toNat < Nat.pow 256 8 := x.bits.toNat_lt
    unfold Format.float
    dsimp only
    rw [take?_append_of_eq (length_littleEndian 8 _), Option.map_some,
      ofLittleEndian_littleEndian hword, UInt64.ofNat_toNat, id_eq]
  put_pos x := by
    unfold Format.float
    dsimp only
    rw [length_littleEndian]
    exact Nat.succ_pos 7

/-- Texts. -/
theorem string : Delimited .string where
  get_put s rest hlength := by
    have hbytes : (utf8 s).length < UInt64.size := by
      have happend : (Format.string.put s).length =
          (putCount (utf8 s).length).length + (utf8 s).length := List.length_append
      omega
    show (getCount 8 (putCount (utf8 s).length ++ utf8 s ++ rest) >>= _) = _
    rw [List.append_assoc, getCount_putCount (.inr (.inr ⟨rfl, hbytes⟩))]
    simp only [Option.bind_eq_bind, Option.bind_some, take?_append, ofUtf8?_utf8, id_eq]
  put_pos s := by
    show 0 < (putCount _ ++ utf8 s).length
    rw [List.length_append]
    exact Nat.add_pos_left (length_putCount_pos _) _

/-- Values that may be absent. -/
theorem option (h : Delimited f) : Delimited f.option where
  get_put a rest hlength := by
    cases a with
    | none => rfl
    | some a =>
      have hlength' : (f.put a).length < UInt64.size := by
        have hcons : (f.option.put (some a)).length = (f.put a).length + 1 := rfl
        omega
      show (f.get (f.put a ++ rest)).map _ = _
      rw [h.get_put a rest hlength']
      rfl
  put_pos a := by cases a <;> exact Nat.succ_pos _

/-- Items are read one after another. -/
theorem getItems_flatMap (h : Delimited f) (l : List α) (rest : Bytes)
    (hlength : (l.flatMap f.put).length < UInt64.size) :
    Format.getItems f.get l.length (l.flatMap f.put ++ rest) = some (l, rest) := by
  induction l with
  | nil => rfl
  | cons a l ih =>
    rw [List.flatMap_cons, List.length_append] at hlength
    have hhead := h.get_put a (l.flatMap f.put ++ rest) (by omega)
    rw [List.length_cons, List.flatMap_cons, List.append_assoc, Format.getItems, hhead]
    simp only [Option.bind_eq_bind, Option.bind_some, ih (by omega), id_eq]

/-- Lists. -/
theorem list (h : Delimited f) : Delimited f.list where
  get_put l rest hlength := by
    have hlength' : (putCount l.length ++ l.flatMap f.put).length < UInt64.size := hlength
    rw [List.length_append] at hlength'
    have hcount : l.length < UInt64.size := by
      have hle := length_le_flatMap h.put_pos l
      omega
    show (getCount 8 (putCount l.length ++ l.flatMap f.put ++ rest) >>= _) = _
    rw [List.append_assoc, getCount_putCount (.inr (.inr ⟨rfl, hcount⟩))]
    exact getItems_flatMap h l rest (by omega)
  put_pos l := by
    show 0 < (putCount _ ++ l.flatMap f.put).length
    rw [List.length_append]
    exact Nat.add_pos_left (length_putCount_pos _) _

/-- Pairs. -/
theorem pair (hf : Delimited f) (hg : Delimited g) : Delimited (f.pair g) where
  get_put p rest hlength := by
    have hlength' : (f.put p.1 ++ g.put p.2).length < UInt64.size := hlength
    rw [List.length_append] at hlength'
    show (f.get (f.put p.1 ++ g.put p.2 ++ rest) >>= _) = _
    rw [List.append_assoc, hf.get_put p.1 _ (by omega)]
    simp only [Option.bind_eq_bind, Option.bind_some, hg.get_put p.2 rest (by omega), id_eq]
  put_pos p := by
    show 0 < (f.put p.1 ++ g.put p.2).length
    rw [List.length_append]
    exact Nat.add_pos_left (hf.put_pos p.1) _

/-- Tables: as bytes they are the lists of their entries. -/
theorem table (h : Delimited f) : Delimited f.table where
  get_put t rest hlength := by
    have hentries := (string.pair h).list.get_put t.entries rest hlength
    show (getCount 8 (putCount t.size ++ _ ++ rest) >>= _) = _
    change (getCount 8 (putCount t.entries.length ++ _ ++ rest) >>= _) = _ at hentries
    cases hcount : getCount 8
        (putCount t.entries.length ++ t.entries.flatMap (Format.pair .string f).put ++ rest) with
    | none =>
      rw [hcount] at hentries
      cases hentries
    | some r =>
      rw [hcount] at hentries
      have hitems : Format.getItems (Format.pair .string f).get r.1 r.2 =
          some (t.entries, rest) := hentries
      show ((getCount 8 (putCount t.entries.length ++
        t.entries.flatMap (Format.pair .string f).put ++ rest)) >>= fun r =>
          Format.getItems (Format.pair .string f).get r.1 r.2 >>= fun r =>
            some (Table.ofList r.1, r.2)) = _
      rw [hcount]
      simp only [Option.bind_eq_bind, Option.bind_some, hitems, Table.ofList_entries, id_eq]
  put_pos t := by
    show 0 < (putCount _ ++ _).length
    rw [List.length_append]
    exact Nat.add_pos_left (length_putCount_pos _) _

end DelimitedAs

/-- What was chosen for a value stands in a list of variants and has delimited bytes,
in which a reader sees the second value. -/
inductive Chosen.Framed (variants : List (Variant α)) : Chosen → α → Prop
  /-- A variant without payload. -/
  | bareName {place : Nat} {name : String} {a : α}
    (h : variants[place]? = some (.bareName name a)) : Framed variants (.bareName place) a
  /-- A variant with a payload. -/
  | payload {β : Type} {place : Nat} {name : String} {f : Format β} {make : β → α}
    {seen : β → β} {b : β} (h : variants[place]? = some (.payload name f make))
    (hf : DelimitedAs f seen) : Framed variants (.of place f b) (make (seen b))

/-- The place of a variant is read from before its payload. -/
theorem getCount_place {variants : List (Variant α)} {place : Nat} {v : Variant α}
    (hfew : variants.length ≤ UInt16.size) (h : variants[place]? = some v) (rest : Bytes) :
    getCount 4 (putCount place ++ rest) = some (place, rest) := by
  have hplace := (List.getElem?_eq_some_iff.mp h).1
  have h16 : UInt16.size = 65536 := rfl
  have h32 : UInt32.size = 4294967296 := rfl
  exact getCount_putCount (.inr (.inl ⟨rfl, by omega⟩)) rest

/-- A choice is delimited when all its payloads are. -/
theorem DelimitedAs.choice {variants : List (Variant α)} {chosen : α → Chosen}
    (hfew : variants.length ≤ UInt16.size)
    (h : ∀ a, (chosen a).Framed variants (seen a)) : DelimitedAs (.choice variants chosen) seen where
  get_put a rest hlength := by
    have hlength' : (putCount (chosen a).place ++ (chosen a).payload.elim [] (·.2)).length <
        UInt64.size := hlength
    show (getCount 4 (putCount (chosen a).place ++ (chosen a).payload.elim [] (·.2) ++ rest) >>=
      _) = _
    rw [List.length_append] at hlength'
    generalize chosen a = c, seen a = s, h a = ha at hlength' ⊢
    cases ha with
    | bareName hplace =>
      rw [List.append_assoc, Chosen.bareName, getCount_place hfew hplace]
      simp only [Option.bind_eq_bind, Option.bind_some, hplace]
      rfl
    | payload hplace hf =>
      rename_i place name f make seen b
      have hget := hf.get_put b rest (by
        have hbytes : ((Chosen.of place f b).payload.elim [] (·.2)).length = (f.put b).length := rfl
        omega)
      rw [List.append_assoc, Chosen.of, getCount_place hfew hplace]
      simp only [Option.bind_eq_bind, Option.bind_some, hplace]
      show (f.get (f.put b ++ rest)).map _ = _
      rw [hget]
      rfl
  put_pos a := by
    show 0 < (putCount _ ++ _).length
    rw [List.length_append]
    exact Nat.add_pos_left (length_putCount_pos _) _

/-- A choice without payloads is delimited. -/
theorem DelimitedAs.names [DecidableEq α] {all : List α} {name : α → String}
    (hfew : all.length ≤ UInt16.size) (hall : ∀ a, a ∈ all) : Delimited (.names all name) := by
  refine DelimitedAs.choice (by rw [List.length_map]; exact hfew) fun a => ?_
  refine .bareName (?_ : _ = some (Variant.bareName (name a) a))
  have hplace : all[all.idxOf a]? = some a := by
    rw [List.getElem?_eq_getElem (List.idxOf_lt_length_of_mem (hall a)), List.getElem_idxOf]
  rw [List.getElem?_map, hplace]
  rfl

namespace DelimitedAs

/-- A field that must be there. -/
theorem required (name : String) (h : DelimitedAs f seen) :
    DelimitedAs (Wire.required name f).format seen := ⟨h.get_put, h.put_pos⟩

/-- A field whose value may be absent. -/
theorem optional (name : String) (h : Delimited f) :
    Delimited (Fields.one (.optional name f)).format := ⟨h.option.get_put, h.option.put_pos⟩

/-- The fields of one record, then those of another: their bytes are those of a
pair. -/
theorem and {f : Fields α} {g : Fields β} (hf : Delimited f.format) (hg : Delimited g.format) :
    Delimited (f.and g).format := ⟨(hf.pair hg).get_put, (hf.pair hg).put_pos⟩

/-- Fields that stand for those of another type. -/
theorem mapFields {f : Fields α} (h : DelimitedAs f.format seen) {make : α → β} {view : β → α}
    (hmake : ∀ b, make (seen (view b)) = seen' b) : DelimitedAs (f.map make view).format seen' :=
  ⟨(h.map hmake).get_put, (h.map hmake).put_pos⟩

/-- Rows, of which a reader sees the cursor before the first. -/
theorem rows (h : Delimited f) : DelimitedAs (RowCursor.format f) RowCursor.reset :=
  (h.list.required "rows").mapFields fun _ => rfl

end DelimitedAs

end RatingServer.Wire
