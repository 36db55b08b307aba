import RatingServer.Proofs.Wire.Delimited

/-!
# Readers that go by the bytes they take

A reader of bytes is steady when bytes that come after those it takes change
nothing: it answers the same value and leaves them as well. Each way of building a
format keeps that. With the law of delimited bytes it follows that no value is read
from bytes that end before those of a value do.
-/

namespace RatingServer.Wire

/-- More bytes at the end do not change what is read. -/
def Steady {α : Type} (get : ReadBytes α) : Prop :=
  ∀ bs a rest, get bs = some (a, rest) → ∀ more, get (bs ++ more) = some (a, rest ++ more)

variable {α β : Type}

namespace Steady

/-- A reader that takes no byte. -/
theorem pure (a : α) : Steady fun bs => some (a, bs) := by
  intro bs a' rest h more
  cases h
  rfl

/-- A reader that goes on with what another one read. -/
theorem bind {get : ReadBytes α} {next : α → ReadBytes β} (h : Steady get)
    (hnext : ∀ a, Steady (next a)) : Steady fun bs => get bs >>= fun r => next r.1 r.2 := by
  intro bs b rest hread more
  obtain ⟨⟨a, rest'⟩, hfirst, hsecond⟩ := Option.bind_eq_some_iff.mp hread
  show (get (bs ++ more) >>= _) = _
  rw [h bs a rest' hfirst more]
  exact hnext a rest' b rest hsecond more

/-- A reader that depends on a value which may be missing. -/
theorem among (value : Option α) {next : α → ReadBytes β}
    (h : ∀ a, value = some a → Steady (next a)) : Steady fun bs => value >>= fun a => next a bs := by
  cases value with
  | none =>
    intro bs b rest hread more
    cases hread
  | some a => exact h a rfl

/-- A reader of values that stand for those of another. -/
theorem make {get : ReadBytes α} (h : Steady get) (make : α → β) :
    Steady fun bs => (get bs).map fun r => (make r.1, r.2) := by
  intro bs b rest hread more
  obtain ⟨⟨a, rest'⟩, hfirst, hmake⟩ := Option.map_eq_some_iff.mp hread
  cases hmake
  show (get (bs ++ more)).map _ = _
  rw [h bs a rest' hfirst more]
  rfl

/-- A number of bytes. -/
theorem take? (count : Nat) : Steady (Wire.take? count) := by
  intro bs taken rest hread more
  unfold Wire.take? at hread
  split at hread
  · rename_i hcount
    cases hread
    have hsplit := List.take_append_drop count bs
    have hmore := take?_append_of_eq hcount (bs.drop count ++ more)
    rwa [← List.append_assoc, hsplit] at hmore
  · cases hread

/-- The bytes of a long count, after its mark. -/
theorem longCount (mark : UInt8) (widest : Nat) : Steady fun bs =>
    widthOfMark mark >>= fun width =>
      if widest < width then none
      else Wire.take? width bs >>= fun r => some (ofLittleEndian r.1, r.2) := by
  refine among (widthOfMark mark) fun width _ => ?_
  by_cases hwide : widest < width
  · intro bs n rest hread more
    exact absurd ((if_pos hwide).symm.trans hread) (Option.some_ne_none _).symm
  · simp only [if_neg hwide]
    exact (take? width).bind fun number => pure (ofLittleEndian number)

/-- Counts. -/
theorem getCount (widest : Nat) : Steady (Wire.getCount widest) := by
  intro bs n rest hread more
  cases bs with
  | nil => cases hread
  | cons b bs =>
    rw [List.cons_append, Wire.getCount]
    rw [Wire.getCount] at hread
    split
    · rename_i hshort
      rw [if_pos hshort] at hread
      cases hread
      rfl
    · rename_i hlong
      rw [if_neg hlong] at hread
      exact longCount b widest bs n rest hread more

/-- Truth values. -/
theorem bool : Steady Format.bool.get := by
  intro bs b rest hread more
  unfold Format.bool at hread ⊢
  dsimp only at hread
  split at hread <;> cases hread <;> rfl

/-- Natural numbers. -/
theorem unsigned {bits widest : Nat} {toNat : α → Nat} {ofNat : Nat → α} :
    Steady (Format.unsigned bits widest toNat ofNat).get := (getCount widest).make ofNat

/-- Integers. -/
theorem signed {bits widest : Nat} {toInt : α → Int} {ofInt : Int → α} :
    Steady (Format.signed bits widest toInt ofInt).get :=
  (getCount widest).make fun n => ofInt (unfold n)

/-- Floating-point numbers. -/
theorem float : Steady Format.float.get :=
  (take? 8).make fun bs => Double.mk (UInt64.ofNat (ofLittleEndian bs))

/-- Texts. -/
theorem string : Steady Format.string.get :=
  (getCount 8).bind fun length => (take? length).bind fun text => among (ofUtf8? text) fun s _ => pure s

/-- Values that may be absent. -/
theorem option {f : Format α} (h : Steady f.get) : Steady f.option.get := by
  intro bs a rest hread more
  unfold Format.option at hread ⊢
  dsimp only at hread
  split at hread
  · cases hread
    rfl
  · exact h.make some _ a rest hread more
  · cases hread

/-- Items one after another. -/
theorem getItems {get : ReadBytes α} (h : Steady get) (count : Nat) :
    Steady (Format.getItems get count) := by
  induction count with
  | zero => exact pure []
  | succ count ih => exact h.bind fun a => ih.bind fun as => pure (a :: as)

/-- Lists. -/
theorem list {f : Format α} (h : Steady f.get) : Steady f.list.get :=
  (getCount 8).bind fun count => h.getItems count

/-- Values that stand for those of another format. -/
theorem map {f : Format α} (h : Steady f.get) {make : α → β} {view : β → α} :
    Steady (f.map make view).get := h.make make

/-- Pairs. -/
theorem pair {f : Format α} {g : Format β} (hf : Steady f.get) (hg : Steady g.get) :
    Steady (f.pair g).get :=
  hf.bind fun a => hg.bind fun b => pure (a, b)

/-- Tables. -/
theorem table {f : Format α} (h : Steady f.get) : Steady f.table.get :=
  (getCount 8).bind fun count =>
    ((string.pair h).getItems count).bind fun entries => pure (Table.ofList entries)

/-- Choices of which every payload is read by a steady reader. -/
theorem choice {variants : List (Variant α)} {chosen : α → Chosen}
    (h : ∀ v ∈ variants, Steady v.getPayload) : Steady (Format.choice variants chosen).get :=
  (getCount 4).bind fun place => among variants[place]? fun v hv => h v (List.mem_of_getElem? hv)

/-- Choices without payloads. -/
theorem names [DecidableEq α] {all : List α} {name : α → String} :
    Steady (Format.names all name).get := by
  refine choice fun v hv => ?_
  obtain ⟨a, _, rfl⟩ := List.mem_map.mp hv
  exact pure a

/-- A variant with a payload. -/
theorem payload {name : String} {f : Format β} {make : β → α} (h : Steady f.get) :
    Steady (Variant.payload name f make).getPayload := h.make make

/-- A field that must be there. -/
theorem required (name : String) {f : Format α} (h : Steady f.get) :
    Steady (Wire.required name f).format.get := h

/-- A field whose value may be absent. -/
theorem optional (name : String) {f : Format α} (h : Steady f.get) :
    Steady (Fields.one (.optional name f)).format.get := h.option

/-- The fields of one record, then those of another. -/
theorem and {f : Fields α} {g : Fields β} (hf : Steady f.format.get) (hg : Steady g.format.get) :
    Steady (f.and g).format.get := hf.pair hg

/-- Fields that stand for those of another type. -/
theorem mapFields {f : Fields α} (h : Steady f.format.get) {make : α → β} {view : β → α} :
    Steady (f.map make view).format.get := h.make make

/-- Rows. -/
theorem rows {f : Format α} (h : Steady f.get) : Steady (RowCursor.format f).get :=
  h.list.make RowCursor.of

end Steady

/-- More bytes than there are cannot be taken. -/
theorem take?_eq_none {count : Nat} {bs : Bytes} (h : bs.length < count) :
    take? count bs = none := by
  rw [take?, List.take_of_length_le (by omega), if_neg (by omega)]

/-- Nothing is read from bytes that end before those of a value do. -/
theorem DelimitedAs.get_eq_none {f : Format α} {seen : α → α} (h : DelimitedAs f seen)
    (hsteady : Steady f.get) {a : α} (hlength : (f.put a).length < UInt64.size)
    {start : Bytes} (hstart : start <+: f.put a) (hshort : start ≠ f.put a) :
    f.get start = none := by
  obtain ⟨ending, hending⟩ := hstart
  cases hread : f.get start with
  | none => rfl
  | some r =>
    obtain ⟨b, rest⟩ := r
    -- With its ending the value is read whole, so that the ending would be left.
    have hlonger := hsteady start b rest hread ending
    have hwhole := h.get_put a [] hlength
    rw [List.append_nil] at hwhole
    rw [hending, hwhole] at hlonger
    have hleft : rest ++ ending = [] := congrArg Prod.snd (Option.some.inj hlonger).symm
    rw [(List.append_eq_nil_iff.mp hleft).2, List.append_nil] at hending
    exact absurd hending hshort

end RatingServer.Wire
