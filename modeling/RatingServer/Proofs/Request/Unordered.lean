import RatingServer.Proofs.Json.WellFormed
import RatingServer.Proofs.Request.Lines
import RatingServer.Proofs.Request.Slots

/-!
# Requests are read as unordered records

A line that is a record is read in three goes: for the flag, for the action, and for the
fields of the action. Each of them looks only at the members of its own names, and finds
the same whatever the order of the members and whatever other members there are. So the
line is a request exactly if its action stands there once, the flag at most once, and each
field of the action has a value among the members; the request is made of these values.

All members are kept before the action is known. This asks one thing of the other members
too: a numeral that is too large for a number, or a text with half of a surrogate pair, is
refused wherever it stands.
-/

namespace RatingServer

open Wire Json

namespace Request

/-- A line that is a record of some members: it is well formed, and nests within the limit. -/
structure IsRecord (line : String) (ms : List (Option String × Document)) : Prop where
  /-- The line is the record, and nothing else. -/
  parse : Document.parse (Text.trim line.toList) = (.obj ms true, true)
  /-- Its lists and records nest within the limit. -/
  nested : (Document.obj ms true).nestsWithin maxDepth = true

/-- A line that is a record whose keys, texts and numbers all denote something. -/
structure IsReadable (line : String) (ms : List (Option String × Document)) : Prop
    extends IsRecord line ms where
  /-- Every key, and every text and number in the values, denotes something. -/
  denotes : membersDenote ms = true

/-- Members of which the flag is read and the others are kept can all be kept. -/
theorem membersKept_of_keep {ms kept : List (Option String × Document)} {asked binary : Option Bool}
    (h : keep asked ms = .ok (binary, kept)) : membersKept (maxDepth - 1) ms = true := by
  induction ms generalizing asked binary kept with
  | nil => rfl
  | cons m ms ih =>
    obtain ⟨k, d⟩ := m
    cases k with
    | none => cases h
    | some k =>
      rw [membersKept, Option.isSome_some, Bool.true_and, Bool.and_eq_true]
      unfold keep at h
      split at h
      · split at h
        · cases h
        · obtain ⟨b, hb, hrest⟩ := bind_eq_ok.mp h
          cases d with
          | bool b => exact ⟨rfl, ih hrest⟩
          | _ => cases hb
      · split at h
        · rename_i hd
          obtain ⟨⟨flag, others⟩, hrest, -⟩ := bind_eq_ok.mp h
          exact ⟨hd, ih hrest⟩
        · cases h

/-- Whatever line is read is such a record. -/
theorem exists_isReadable_of_decode {line : String} {r : Request} (h : decode line = .ok r) :
    ∃ ms, IsReadable line ms := by
  unfold decode at h
  cases hparse : Document.parse (Text.trim line.toList) with
  | mk d clean =>
    rw [hparse] at h
    dsimp only at h
    cases d with
    | obj ms whole =>
      obtain ⟨⟨binary, kept⟩, hkeep, h⟩ := bind_eq_ok.mp h
      have hkept := membersKept_of_keep hkeep
      cases whole with
      | false => cases h
      | true =>
        obtain ⟨⟨found, others⟩, -, h⟩ := bind_eq_ok.mp h
        cases found with
        | none => cases h
        | some form =>
          obtain ⟨body, -, h⟩ := bind_eq_ok.mp h
          cases clean with
          | false => cases h
          | true =>
            rw [membersKept_eq, Bool.and_eq_true, Bool.and_eq_true] at hkept
            obtain ⟨⟨-, hnested⟩, hdenotes⟩ := hkept
            refine ⟨ms, ⟨hparse, ?_⟩, hdenotes⟩
            rw [Document.nestsWithin, hnested]
            rfl
    | _ => cases h

/-- A record that is read is one whose keys, texts and numbers denote something. -/
theorem IsRecord.isReadable_of_decode {line : String} {ms : List (Option String × Document)}
    (h : IsRecord line ms) {r : Request} (hr : decode line = .ok r) : IsReadable line ms := by
  obtain ⟨ms', h'⟩ := exists_isReadable_of_decode hr
  have hms : ms' = ms := (Document.obj.inj (congrArg Prod.fst (h'.parse.symm.trans h.parse))).1
  exact hms ▸ h'

/-- The members without those of a name. -/
def without (name : String) (ms : List (Option String × Document)) :
    List (Option String × Document) :=
  ms.filter fun m => m.1 ≠ some name

/-- A member of the name is left out. -/
theorem without_cons_self (name : String) (d : Document) (ms : List (Option String × Document)) :
    without name ((some name, d) :: ms) = without name ms :=
  List.filter_cons_of_neg (by simp)

/-- A member of another name stays. -/
theorem without_cons_of_ne {name : String} {m : Option String × Document} (h : m.1 ≠ some name)
    (ms : List (Option String × Document)) : without name (m :: ms) = m :: without name ms :=
  List.filter_cons_of_pos (by simpa using h)

/-- Other names have the same values without the members of a name. -/
theorem valuesOf_without {name k : String} (h : k ≠ name) (ms : List (Option String × Document)) :
    valuesOf k (without name ms) = valuesOf k ms := by
  induction ms with
  | nil => rfl
  | cons m ms ih =>
    obtain ⟨k', d⟩ := m
    by_cases hname : k' = some name
    · subst hname
      have hne : some name ≠ some k := fun heq => h (Option.some.inj heq).symm
      rw [without_cons_self, ih, valuesOf_cons_of_ne hne]
    · rw [without_cons_of_ne hname]
      by_cases hk : k' = some k
      · subst hk
        rw [valuesOf_cons_self, valuesOf_cons_self, ih]
      · rw [valuesOf_cons_of_ne hk, valuesOf_cons_of_ne hk, ih]

/-- The members of the fields of an action: all but the flag and the action. -/
def others (ms : List (Option String × Document)) : List (Option String × Document) :=
  without actionField (without binaryField ms)

/-- The fields of an action have the same values among these members. -/
theorem valuesOf_others {k : String} (haction : k ≠ actionField) (hbinary : k ≠ binaryField)
    (ms : List (Option String × Document)) : valuesOf k (others ms) = valuesOf k ms := by
  rw [others, valuesOf_without haction, valuesOf_without hbinary]

/-- Reads the values of a member that may stand only once. -/
def readOnce {β : Type} (name : String) (read : Document → Except DecodeFault β) :
    Option β → List Document → Except DecodeFault (Option β)
  | found, [] => .ok found
  | some _, _ :: _ => .error (.duplicateField name)
  | none, d :: ds => do
    let b ← read d
    readOnce name read (some b) ds

/-- A member that may stand only once is read if it stands once, or not at all. -/
theorem readOnce_eq_ok {β : Type} {name : String} {read : Document → Except DecodeFault β}
    {ds : List Document} {found : Option β} :
    readOnce name read none ds = .ok found ↔
      (ds = [] ∧ found = none) ∨ ∃ d b, ds = [d] ∧ read d = .ok b ∧ found = some b := by
  rcases ds with _ | ⟨d, _ | ⟨d', ds⟩⟩
  · simp [readOnce, eq_comm]
  · simp only [readOnce, bind_eq_ok]
    simp [eq_comm]
  · simp only [readOnce, bind_eq_ok]
    simp

/-- The flag is read of its own members, and the others are kept. -/
theorem keep_eq {ms : List (Option String × Document)}
    (hkept : membersKept (maxDepth - 1) ms = true) (found : Option Bool) :
    keep found ms =
      (readOnce binaryField (Format.bool.ofDocument .stream) found (valuesOf binaryField ms)).map
        (·, without binaryField ms) := by
  induction ms generalizing found with
  | nil => cases found <;> rfl
  | cons m ms ih =>
    obtain ⟨k, d⟩ := m
    rw [membersKept, Bool.and_eq_true, Bool.and_eq_true] at hkept
    obtain ⟨⟨hkey, hd⟩, hrest⟩ := hkept
    obtain ⟨k, rfl⟩ := Option.isSome_iff_exists.mp hkey
    rw [keep]
    by_cases hk : k = binaryField
    · subst hk
      rw [if_pos rfl, valuesOf_cons_self, without_cons_self]
      cases found with
      | some b => rfl
      | none =>
        simp only [ih hrest, readOnce]
        cases Format.bool.ofDocument .stream d <;> rfl
    · have hne : some k ≠ some binaryField := fun heq => hk (Option.some.inj heq)
      rw [if_neg hk, if_pos hd, ih hrest, valuesOf_cons_of_ne hne, without_cons_of_ne hne]
      cases readOnce binaryField (Format.bool.ofDocument .stream) found
        (valuesOf binaryField ms) <;> rfl

/-- The action is read of its own members, and the others are left for it. -/
theorem findAction_eq (ms : List (Option String × Document)) (found : Option ActionForm) :
    findAction found ms =
      (readOnce actionField readAction found (valuesOf actionField ms)).map
        (·, without actionField ms) := by
  induction ms generalizing found with
  | nil => cases found <;> rfl
  | cons m ms ih =>
    obtain ⟨k, d⟩ := m
    rw [findAction]
    by_cases hk : k = some actionField
    · subst hk
      rw [if_pos rfl, valuesOf_cons_self, without_cons_self]
      cases found with
      | some form => rfl
      | none =>
        simp only [ih, readOnce]
        cases readAction d <;> rfl
    · rw [if_neg hk, ih, valuesOf_cons_of_ne hk, without_cons_of_ne hk]
      cases readOnce actionField readAction found (valuesOf actionField ms) <;> rfl

/-- The flag for a binary reply, as a field. -/
def binaryFlag : Wire.Field Bool := .defaulted binaryField .bool false

/-- The flag has the value that is read of its members. -/
theorem binaryFlag_takes_iff {ms : List (Option String × Document)} {b : Bool} :
    binaryFlag.Takes ms b ↔
      ∃ found, readOnce binaryField (Format.bool.ofDocument .stream) none
        (valuesOf binaryField ms) = .ok found ∧ found.getD false = b := by
  have hname : binaryFlag.name = binaryField := rfl
  rw [Field.Takes, hname]
  rcases valuesOf binaryField ms with _ | ⟨d, _ | ⟨d', ds⟩⟩
  · simp [readOnce, binaryFlag, Field.defaulted]
  · constructor
    · exact fun hread => ⟨some b, readOnce_eq_ok.mpr (.inr ⟨d, b, rfl, hread, rfl⟩), rfl⟩
    · rintro ⟨found, hread, rfl⟩
      obtain ⟨hnil, -⟩ | ⟨_, b, hd, hb, rfl⟩ := readOnce_eq_ok.mp hread
      · cases hnil
      · cases hd
        exact hb
  · simp only [readOnce_eq_ok]
    simp

/-- A document names the action of a body by its name or its number. -/
def Names (d : Document) (b : Body) : Prop :=
  d = .str (some b.action) ∨ d = .num (some (.integer b.written.1))

/-- An action stands at one place only. -/
theorem place_inj {i j : Nat} {form : ActionForm} (hi : ActionForm.all[i]? = some form)
    (hj : ActionForm.all[j]? = some form) : i = j := by
  have hlength : i < (ActionForm.all.map ActionForm.name).length := by
    rw [List.length_map]
    exact (List.getElem?_eq_some_iff.mp hi).1
  refine (List.getElem?_inj hlength nodup_names).mp ?_
  rw [List.getElem?_map, List.getElem?_map, hi, hj]

/-- The action that is read of a document is that of the bodies that it names. -/
theorem readAction_iff {d : Document} {b : Body} {form : ActionForm}
    (hform : ActionForm.all[b.written.1]? = some form) :
    readAction d = .ok form ↔ Names d b := by
  have haction : b.action = form.name := by rw [Body.action, hform, Option.elim_some]
  constructor
  · intro hread
    unfold readAction at hread
    split at hread
    · split at hread
      · rename_i name _ found hfound
        cases hread
        have hname : form.name = name := by simpa using List.find?_some hfound
        exact .inl (by rw [haction, hname])
      · cases hread
    · rename_i n
      split at hread
      · cases hread
      · split at hread
        · rename_i hnonneg found hfound
          cases hread
          have hplace : n.toNat = b.written.1 := place_inj hfound hform
          exact .inr (by rw [← hplace, Int.toNat_of_nonneg (by omega)])
        · cases hread
    · cases hread
  · rintro (rfl | rfl)
    · rw [readAction, haction, ofName?_name hform]
    · have hnonneg : ¬ (b.written.1 : Int) < 0 := by omega
      rw [readAction, if_neg hnonneg, Int.toNat_natCast, hform]

section Record

variable {line : String} {ms : List (Option String × Document)} (h : IsReadable line ms)
include h

/-- The values of the members were read to their end. -/
theorem IsReadable.members_whole : membersWhole ms = true := by
  have hwhole := Document.isWhole_of_parse h.parse
  rwa [Document.isWhole, Bool.true_and] at hwhole

/-- The members can be kept. -/
theorem IsReadable.members_kept : membersKept (maxDepth - 1) ms = true := by
  have hnested := h.nested
  rw [Document.nestsWithin, Bool.and_eq_true] at hnested
  rw [membersKept_eq, h.members_whole, hnested.2, h.denotes, Bool.and_self, Bool.and_self]

/-- The members that are left for the action are gone through to their end. -/
theorem IsReadable.named_others : Named (others ms) := by
  intro m hm
  have hmem : m ∈ ms := (List.mem_filter.mp (List.mem_filter.mp hm).1).1
  exact ⟨(membersDenote_iff.mp h.denotes m hmem).1, membersWhole_iff.mp h.members_whole m hmem⟩

/-- A record is read for its flag, for its action, and then by the action. -/
theorem decode_eq :
    decode line = (do
      let binary ← readOnce binaryField (Format.bool.ofDocument .stream) none
        (valuesOf binaryField ms)
      let found ← readOnce actionField readAction none (valuesOf actionField ms)
      match found with
      | none => .error (.missingField actionField)
      | some form => (form.read (others ms)).map fun body => ⟨body, binary.getD false⟩) := by
  have hvalues : valuesOf actionField (without binaryField ms) = valuesOf actionField ms :=
    valuesOf_without (by decide) ms
  rw [decode, h.parse]
  simp only [ofDocument, keep_eq h.members_kept]
  cases readOnce binaryField (Format.bool.ofDocument .stream) none (valuesOf binaryField ms) with
  | error e => rfl
  | ok binary =>
    simp only [Except.map, ok_bind, Bool.not_true, Bool.false_eq_true, if_false, findAction_eq,
      hvalues]
    cases readOnce actionField readAction none (valuesOf actionField ms) with
    | error e => rfl
    | ok found =>
      cases found with
      | none => rfl
      | some form =>
        simp only [ok_bind, if_true, others]
        cases form.read (without actionField (without binaryField ms)) <;> rfl

/-- What is read of a record, if its flag and its action are. -/
theorem decode_of {b : Body} {binary : Bool} (hflag : binaryFlag.Takes ms binary) {d : Document}
    (haction : valuesOf actionField ms = [d]) (hnames : Names d b) {form : ActionForm}
    (hform : ActionForm.all[b.written.1]? = some form) :
    decode line = (form.read (others ms)).map fun body => ⟨body, binary⟩ := by
  obtain ⟨found, hfound, rfl⟩ := binaryFlag_takes_iff.mp hflag
  have hread : readOnce actionField readAction none (valuesOf actionField ms) = .ok (some form) :=
    readOnce_eq_ok.mpr (.inr ⟨d, form, haction, (readAction_iff hform).mpr hnames, rfl⟩)
  rw [decode_eq h, hfound, ok_bind, hread, ok_bind]

/-- A record that is read has its flag and its action. -/
theorem of_decode {r : Request} (hr : decode line = .ok r) :
    binaryFlag.Takes ms r.binary ∧ ∃ d, valuesOf actionField ms = [d] ∧ Names d r.body := by
  rw [decode_eq h] at hr
  obtain ⟨binary, hbinary, hr⟩ := bind_eq_ok.mp hr
  obtain ⟨found, hfound, hr⟩ := bind_eq_ok.mp hr
  obtain ⟨hnil, rfl⟩ | ⟨d, form, hd, hform, rfl⟩ := readOnce_eq_ok.mp hfound
  · cases hr
  · obtain ⟨body, hbody, rfl⟩ := map_eq_ok.mp hr
    refine ⟨binaryFlag_takes_iff.mpr ⟨binary, hbinary, rfl⟩, d, hd, ?_⟩
    obtain ⟨place, hplace⟩ := List.mem_iff_getElem?.mp (mem_of_readAction hform)
    have hat := ActionForm.placed_all.place_eq hplace hbody
    rw [Nat.zero_add] at hat
    exact (readAction_iff (hat ▸ hplace)).mp hform

/-- A record is read by the fields of the body that its action names. -/
theorem decode_laid {b : Body} {binary : Bool} (hflag : binaryFlag.Takes ms binary) {d : Document}
    (haction : valuesOf actionField ms = [d]) (hnames : Names d b) :
    ∃ (α : Type) (fields : Fields α) (make : α → Body) (a : α),
      fields.Lays (fun a => (make a).slots) ∧ make a = b ∧
      decode line = (fields.ofMembers .kept (others ms) true).map fun a => ⟨make a, binary⟩ := by
  obtain ⟨α, required, name, fields, make, a, hform, hlays, hmake⟩ := b.laid
  refine ⟨α, fields, make, a, hlays, hmake, ?_⟩
  rw [decode_of h hflag haction hnames hform]
  show ((fields.ofMembers .kept (others ms) true).map make).map _ = _
  cases fields.ofMembers .kept (others ms) true <;> rfl

end Record

/-- A slot of a body has the same values among the members that are left for the action. -/
theorem valuesOf_slot {b : Body} {x : Slot} (hx : x ∈ b.slots)
    (ms : List (Option String × Document)) : valuesOf x.name (others ms) = valuesOf x.name ms :=
  valuesOf_others (b.slots_names x hx).1 (b.slots_names x hx).2 ms

/-- A line that is a record of some members is read without regard to their order. -/
structure ReadsUnordered (line : String) (ms : List (Option String × Document)) : Prop where
  /-- A request is read exactly if every key, text and number denotes something, the action
  stands once and names the request's, and the flag and each field of the request have
  their values among the members. -/
  decoded : ∀ r : Request, decode line = .ok r ↔ membersDenote ms = true ∧
    (∃ d, valuesOf actionField ms = [d] ∧ Names d r.body) ∧ binaryFlag.Takes ms r.binary ∧
      ∀ x ∈ r.body.slots, x.Holds ms
  /-- If the action names a body, some request is read exactly if every key, text and number
  denotes something, the action stands once, and the flag and each field of the body accept
  the members. -/
  accepted : ∀ b : Body, (∃ d ∈ valuesOf actionField ms, Names d b) →
    ((∃ r, decode line = .ok r) ↔ membersDenote ms = true ∧
      (valuesOf actionField ms).length = 1 ∧ binaryFlag.Accepts ms ∧ ∀ x ∈ b.slots, x.Accepts ms)
  /-- A record with the same action, flag and fields is read as the same request, whatever
  else it has that denotes something, and in whatever order. -/
  unordered : ∀ r : Request, decode line = .ok r →
    ∀ (line' : String) (ms' : List (Option String × Document)), IsReadable line' ms' →
      valuesOf actionField ms' = valuesOf actionField ms →
      valuesOf binaryField ms' = valuesOf binaryField ms →
      (∀ x ∈ r.body.slots, valuesOf x.name ms' = valuesOf x.name ms) → decode line' = .ok r
  /-- Without a field that must be there, the record is refused with the field's name. -/
  missing : ∀ r : Request, decode line = .ok r → ∀ x ∈ r.body.slots, x.IsRequired →
    ∀ (line' : String) (ms' : List (Option String × Document)), IsReadable line' ms' →
      valuesOf x.name ms' = [] → (∀ k ≠ x.name, valuesOf k ms' = valuesOf k ms) →
      decode line' = .error (.missingField x.name)
  /-- With a field that stands twice, its first value being readable, the record is refused
  with the field's name. -/
  repeated : ∀ r : Request, decode line = .ok r → ∀ x ∈ r.body.slots,
    ∀ (line' : String) (ms' : List (Option String × Document)), IsReadable line' ms' →
      2 ≤ (valuesOf x.name ms').length → (∀ d ∈ (valuesOf x.name ms').head?, x.Reads d) →
      (∀ k ≠ x.name, valuesOf k ms' = valuesOf k ms) →
      decode line' = .error (.duplicateField x.name)

section Law

variable {line : String} {ms : List (Option String × Document)} (h : IsReadable line ms)
include h

/-- Which request is read of a record. -/
theorem decode_eq_ok_iff (r : Request) : decode line = .ok r ↔
    (∃ d, valuesOf actionField ms = [d] ∧ Names d r.body) ∧ binaryFlag.Takes ms r.binary ∧
      ∀ x ∈ r.body.slots, x.Holds ms := by
  have hholds : (∀ x ∈ r.body.slots, x.Holds (others ms)) ↔ ∀ x ∈ r.body.slots, x.Holds ms :=
    forall₂_congr fun x hx => Field.takes_congr (valuesOf_slot hx ms)
  constructor
  · intro hr
    obtain ⟨hflag, d, haction, hnames⟩ := of_decode h hr
    refine ⟨⟨d, haction, hnames⟩, hflag, hholds.mp ?_⟩
    obtain ⟨α, fields, make, a, hlays, -, hread⟩ := decode_laid h hflag haction hnames
    obtain ⟨a', ha', hmake⟩ := map_eq_ok.mp (hread.symm.trans hr)
    rw [← show make a' = r.body from congrArg Request.body hmake]
    exact (hlays.ofMembers_iff h.named_others).mp ha'
  · rintro ⟨⟨d, haction, hnames⟩, hflag, hslots⟩
    obtain ⟨α, fields, make, a, hlays, hmake, hread⟩ := decode_laid h hflag haction hnames
    have ha : fields.ofMembers .kept (others ms) true = .ok a :=
      (hlays.ofMembers_iff h.named_others).mpr (hmake.symm ▸ hholds.mpr hslots)
    rw [hread, ha]
    exact congrArg Except.ok (congrArg (Request.mk · r.binary) hmake)

/-- A request is read of a record whose action names a body. -/
theorem decode_exists_iff {b : Body} (hb : ∃ d ∈ valuesOf actionField ms, Names d b) :
    (∃ r, decode line = .ok r) ↔ (valuesOf actionField ms).length = 1 ∧
      binaryFlag.Accepts ms ∧ ∀ x ∈ b.slots, x.Accepts ms := by
  have haccepts : (∀ x ∈ b.slots, x.Accepts (others ms)) ↔ ∀ x ∈ b.slots, x.Accepts ms :=
    forall₂_congr fun x hx => exists_congr fun _ => Field.takes_congr (valuesOf_slot hx ms)
  obtain ⟨d, hd, hnames⟩ := hb
  constructor
  · rintro ⟨r, hr⟩
    obtain ⟨hflag, d', haction, -⟩ := of_decode h hr
    rw [haction, List.mem_singleton] at hd
    subst hd
    refine ⟨by rw [haction, List.length_singleton], ⟨_, hflag⟩, haccepts.mp ?_⟩
    obtain ⟨α, fields, make, a, hlays, rfl, hread⟩ := decode_laid h hflag haction hnames
    obtain ⟨a', ha', -⟩ := map_eq_ok.mp (hread.symm.trans hr)
    exact (hlays.ofMembers_exists h.named_others a).mp ⟨a', ha'⟩
  · rintro ⟨hlength, ⟨binary, hflag⟩, hslots⟩
    obtain ⟨d', haction⟩ := List.length_eq_one_iff.mp hlength
    rw [haction, List.mem_singleton] at hd
    subst hd
    obtain ⟨α, fields, make, a, hlays, rfl, hread⟩ := decode_laid h hflag haction hnames
    obtain ⟨a', ha'⟩ := (hlays.ofMembers_exists h.named_others a).mpr (haccepts.mpr hslots)
    exact ⟨_, hread.trans (congrArg (Except.map _) ha')⟩

/-- A record that agrees with one that is read, but for the members of one field, is read by
the same fields, and all others accept its members. -/
theorem decode_but {r : Request} (hr : decode line = .ok r) {x : Slot} (hx : x ∈ r.body.slots)
    {line' : String} {ms' : List (Option String × Document)} (h' : IsReadable line' ms')
    (hsame : ∀ k ≠ x.name, valuesOf k ms' = valuesOf k ms) :
    ∃ (α : Type) (fields : Fields α) (make : α → Body) (a : α),
      fields.Lays (fun a => (make a).slots) ∧ make a = r.body ∧
      decode line' = (fields.ofMembers .kept (others ms') true).map
        (fun a => ⟨make a, r.binary⟩) ∧
      ∀ y ∈ r.body.slots, y.name ≠ x.name → y.Accepts (others ms') := by
  obtain ⟨⟨d, haction, hnames⟩, hflag, hslots⟩ := (decode_eq_ok_iff h r).mp hr
  obtain ⟨hne, hne'⟩ := r.body.slots_names x hx
  have haction' : valuesOf actionField ms' = [d] := (hsame _ hne.symm).trans haction
  have hflag' : binaryFlag.Takes ms' r.binary :=
    (Field.takes_congr (hsame binaryField hne'.symm)).mpr hflag
  obtain ⟨α, fields, make, a, hlays, hmake, hread⟩ := decode_laid h' hflag' haction' hnames
  refine ⟨α, fields, make, a, hlays, hmake, hread, fun y hy hname => ⟨y.value, ?_⟩⟩
  have hvalues : valuesOf y.name (others ms') = valuesOf y.name ms :=
    (valuesOf_slot hy ms').trans (hsame _ hname)
  exact (Field.takes_congr hvalues).mpr (hslots y hy)

/-- A record with the same action, flag and fields is read as the same request. -/
theorem decode_unordered {r : Request} (hr : decode line = .ok r) {line' : String}
    {ms' : List (Option String × Document)} (h' : IsReadable line' ms')
    (haction : valuesOf actionField ms' = valuesOf actionField ms)
    (hbinary : valuesOf binaryField ms' = valuesOf binaryField ms)
    (hslots : ∀ x ∈ r.body.slots, valuesOf x.name ms' = valuesOf x.name ms) :
    decode line' = .ok r := by
  obtain ⟨⟨d, hd, hnames⟩, hflag, hholds⟩ := (decode_eq_ok_iff h r).mp hr
  refine (decode_eq_ok_iff h' r).mpr ⟨⟨d, haction.trans hd, hnames⟩, ?_, fun x hx => ?_⟩
  · exact (Field.takes_congr (f := binaryFlag) hbinary).mpr hflag
  · exact (Field.takes_congr (hslots x hx)).mpr (hholds x hx)

/-- Without a field that must be there, the record is refused with the field's name. -/
theorem decode_missing {r : Request} (hr : decode line = .ok r) {x : Slot}
    (hx : x ∈ r.body.slots) (hrequired : x.IsRequired) {line' : String}
    {ms' : List (Option String × Document)} (h' : IsReadable line' ms')
    (hnone : valuesOf x.name ms' = []) (hsame : ∀ k ≠ x.name, valuesOf k ms' = valuesOf k ms) :
    decode line' = .error (.missingField x.name) := by
  obtain ⟨α, fields, make, a, hlays, hmake, hread, hothers⟩ := decode_but h hr hx h' hsame
  have hnone' : valuesOf x.name (others ms') = [] := (valuesOf_slot hx ms').trans hnone
  rw [← hmake] at hx hothers
  rw [hread, hlays.ofMembers_missing h'.named_others hx hrequired hnone' hothers]
  rfl

/-- With a field that stands twice, its first value being readable, the record is refused
with the field's name. -/
theorem decode_repeated {r : Request} (hr : decode line = .ok r) {x : Slot}
    (hx : x ∈ r.body.slots) {line' : String} {ms' : List (Option String × Document)}
    (h' : IsReadable line' ms') (hlength : 2 ≤ (valuesOf x.name ms').length)
    (hfirst : ∀ d ∈ (valuesOf x.name ms').head?, x.Reads d)
    (hsame : ∀ k ≠ x.name, valuesOf k ms' = valuesOf k ms) :
    decode line' = .error (.duplicateField x.name) := by
  obtain ⟨α, fields, make, a, hlays, hmake, hread, hothers⟩ := decode_but h hr hx h' hsame
  have hvalues := valuesOf_slot hx ms'
  rcases hds : valuesOf x.name ms' with _ | ⟨d, _ | ⟨d', ds⟩⟩
  · rw [hds] at hlength
    cases hlength
  · rw [hds] at hlength
    exact absurd hlength (by simp)
  · rw [hds] at hvalues hfirst
    have hreads : x.Reads d := hfirst d rfl
    rw [← hmake] at hx hothers
    rw [hread, hlays.ofMembers_repeated h'.named_others hx hvalues hreads hothers]
    rfl

end Law

/-- Every line that is a record is read without regard to the order of its members. -/
theorem IsRecord.readsUnordered {line : String} {ms : List (Option String × Document)}
    (h : IsRecord line ms) : ReadsUnordered line ms where
  decoded r := by
    constructor
    · intro hr
      have hreadable := h.isReadable_of_decode hr
      exact ⟨hreadable.denotes, (decode_eq_ok_iff hreadable r).mp hr⟩
    · rintro ⟨hdenotes, hr⟩
      exact (decode_eq_ok_iff ⟨h, hdenotes⟩ r).mpr hr
  accepted b hb := by
    constructor
    · rintro ⟨r, hr⟩
      have hreadable := h.isReadable_of_decode hr
      exact ⟨hreadable.denotes, (decode_exists_iff hreadable hb).mp ⟨r, hr⟩⟩
    · rintro ⟨hdenotes, hr⟩
      exact (decode_exists_iff ⟨h, hdenotes⟩ hb).mpr hr
  unordered _ hr _ _ h' haction hbinary hslots :=
    decode_unordered (h.isReadable_of_decode hr) hr h' haction hbinary hslots
  missing _ hr _ hx hrequired _ _ h' hnone hsame :=
    decode_missing (h.isReadable_of_decode hr) hr hx hrequired h' hnone hsame
  repeated _ hr _ hx _ _ h' hlength hfirst hsame :=
    decode_repeated (h.isReadable_of_decode hr) hr hx h' hlength hfirst hsame

/-- The line of a record that nests within the limit, its only number being an integer. -/
theorem isRecord_compact {ms : List (String × Json)} {n : Int}
    (hnumbers : (Json.obj ms).numbers = [.integer n]) (hn : fitsWord n = true)
    (hnested : (Document.obj (toMembers ms) true).nestsWithin maxDepth = true) :
    IsRecord (Json.obj ms).compact (toMembers ms) := by
  have hreadable : (Json.obj ms).Readable := by
    intro m hm
    rw [hnumbers, List.mem_singleton] at hm
    rw [hm]
    exact hn
  have hchars : (Json.obj ms).compact.toList = (Json.obj ms).chars := String.toList_ofList
  have hparse : Document.parse (Text.trim (Json.obj ms).compact.toList) =
      (.obj (toMembers ms) true, true) := by
    rw [hchars, trim_chars rfl, parse_chars hreadable, toDocument]
  exact ⟨hparse, hnested⟩

/-- Members in no particular order, some of which mean nothing to the request. -/
def scatteredMembers : List (String × Json) :=
  [("unit", .str "book"), ("userid", .num (.integer 7)), (binaryField, .bool true),
    ("unit", .null), (actionField, .str "get_user_rating")]

/-- Their line is a record of them. -/
theorem isRecord_scattered :
    IsRecord (Json.obj scatteredMembers).compact (toMembers scatteredMembers) := by
  have hnumbers : (Json.obj scatteredMembers).numbers = [.integer 7] := by decide +kernel
  exact isRecord_compact hnumbers rfl (by decide +kernel)

/-- The request is the one of the action, with the flag and the field. -/
theorem decode_scattered : decode (Json.obj scatteredMembers).compact =
    .ok ⟨.operation (.ratingsOf .user 7), true⟩ := by
  have h : IsReadable (Json.obj scatteredMembers).compact (toMembers scatteredMembers) :=
    ⟨isRecord_scattered, by decide +kernel⟩
  refine (decode_eq_ok_iff h _).mpr ⟨⟨_, rfl, .inl rfl⟩, rfl, fun x hx => ?_⟩
  obtain rfl := List.mem_singleton.mp hx
  rfl

/-- The line of these members is read without regard to their order. -/
theorem IsRecord.readsUnordered_sample :
    IsRecord (Json.obj scatteredMembers).compact (toMembers scatteredMembers) ∧
      decode (Json.obj scatteredMembers).compact = .ok ⟨.operation (.ratingsOf .user 7), true⟩ ∧
      ReadsUnordered (Json.obj scatteredMembers).compact (toMembers scatteredMembers) :=
  ⟨isRecord_scattered, decode_scattered, isRecord_scattered.readsUnordered⟩

/-- Members of which one, that no action has, has a numeral too large for a number. -/
def overfullMembers : List (Option String × Document) :=
  [(some actionField, .str (some "get_userids")), (some "x", .num none)]

/-- Their line. -/
def overfullLine : String := "\x7b\"action\":\"get_userids\",\"x\":1e999\x7d"

/-- The members of a request, with a value of its field in front that is not of its type. -/
def misreadMembers : List (String × Json) :=
  ("userid", .str "7") :: scatteredMembers

/-- The field stands twice, and it is the first value that the record is refused for. -/
theorem decode_misread : decode (Json.obj misreadMembers).compact = .error .invalidType := by
  have hnumbers : (Json.obj misreadMembers).numbers = [.integer 7] := by decide +kernel
  have h : IsReadable (Json.obj misreadMembers).compact (toMembers misreadMembers) :=
    ⟨isRecord_compact hnumbers rfl (by decide +kernel), by decide +kernel⟩
  have hflag : binaryFlag.Takes (toMembers misreadMembers) true := rfl
  have hnames : Names (.str (some "get_user_rating")) (.operation (.ratingsOf .user 7)) :=
    .inl rfl
  rw [decode_of h hflag rfl hnames rfl]
  rfl

/-- A well-formed line has the action and all fields of a request once, and still it is not
read; and a request that is read is not refused for a field that stands twice, once a value
of another type stands before the field's own. -/
theorem IsRecord.not_decoded_overfull :
    (IsRecord overfullLine overfullMembers ∧
      (∃ d ∈ valuesOf actionField overfullMembers, Names d (.operation (.ids .user))) ∧
      ¬ ((∃ r, decode overfullLine = .ok r) ↔ (valuesOf actionField overfullMembers).length = 1 ∧
        binaryFlag.Accepts overfullMembers ∧
        ∀ x ∈ (Body.operation (.ids .user)).slots, x.Accepts overfullMembers)) ∧
    (∃ r, decode (Json.obj scatteredMembers).compact = .ok r) ∧
      decode (Json.obj misreadMembers).compact ≠ .error (.duplicateField "userid") := by
  have h : IsRecord overfullLine overfullMembers := ⟨rfl, by decide +kernel⟩
  refine ⟨⟨h, ⟨_, List.mem_cons_self, .inl rfl⟩, fun hiff => ?_⟩, ⟨_, decode_scattered⟩, ?_⟩
  · obtain ⟨r, hr⟩ := hiff.mpr ⟨rfl, ⟨false, rfl⟩, nofun⟩
    cases (h.isReadable_of_decode hr).denotes
  · rw [decode_misread]
    nofun

end Request

end RatingServer
