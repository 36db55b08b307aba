import RatingServer.Proofs.Table.Lookup
import RatingServer.Proofs.Wire.Legible
import RatingServer.Wire.Record

/-!
# Records are read without regard to order

Which record is read from some members depends on nothing but the values that stand
under the name of each field: a field that must be there has one, a field that may be
absent has at most one, and each value reads as the field's type. Neither the order of the
members matters nor what stands under other names. If all else is right, a field that is
missing and a field that stands twice are told by their names.
-/

namespace RatingServer.Wire

open Json (Document)

/-- The values of the members of a name, in their order. -/
def valuesOf (name : String) (ms : List (Option String × Document)) : List Document :=
  valuesUnder (some name) ms

/-- A member of the name comes first. -/
theorem valuesOf_cons_self (name : String) (d : Document) (ms : List (Option String × Document)) :
    valuesOf name ((some name, d) :: ms) = d :: valuesOf name ms :=
  valuesUnder_cons_self (some name) d ms

/-- A member of another name does not matter. -/
theorem valuesOf_cons_of_ne {name : String} {m : Option String × Document} (h : m.1 ≠ some name)
    (ms : List (Option String × Document)) : valuesOf name (m :: ms) = valuesOf name ms :=
  valuesUnder_cons_of_ne h ms

/-- The first value of a name is the one that is looked up. -/
theorem lookup_eq_head? (name : String) (ms : List (Option String × Document)) :
    ms.lookup (some name) = (valuesOf name ms).head? := by
  induction ms with
  | nil => rfl
  | cons m ms ih =>
    obtain ⟨k, d⟩ := m
    by_cases hk : k = some name
    · subst hk
      rw [valuesOf_cons_self, List.lookup_cons_self, List.head?_cons]
    · rw [valuesOf_cons_of_ne hk, ← ih, List.lookup_cons, beq_false_of_ne (Ne.symm hk)]

/-- Of at most one value any is the first. -/
theorem head?_of_mem {ds : List Document} (hone : ds.length ≤ 1) {d : Document} (hd : d ∈ ds) :
    ds.head? = some d := by
  rcases ds with _ | ⟨d', _ | ⟨d'', ds⟩⟩
  · cases hd
  · rw [List.mem_singleton.mp hd, List.head?_cons]
  · exact absurd hone (by simp)

/-- Members that are gone through to their end: each has a name and a whole value. -/
def Named (ms : List (Option String × Document)) : Prop :=
  ∀ m ∈ ms, m.1.isSome = true ∧ m.2.isWhole = true

section Field

variable {α : Type}

/-- The value that a field has among some members: that of the one member of its name, or
the one for when there is no such member. -/
def Field.Takes (f : Field α) (ms : List (Option String × Document)) (a : α) : Prop :=
  match valuesOf f.name ms with
  | [] => f.missing = some a
  | [d] => f.format.ofDocument .kept d = .ok a
  | _ => False

/-- The field has a value among some members. -/
def Field.Accepts (f : Field α) (ms : List (Option String × Document)) : Prop :=
  ∃ a, f.Takes ms a

/-- Only the members of its name matter to a field. -/
theorem Field.takes_congr {f : Field α} {ms ms' : List (Option String × Document)} {a : α}
    (h : valuesOf f.name ms = valuesOf f.name ms') : f.Takes ms a ↔ f.Takes ms' a := by
  rw [Takes, Takes, h]

/-- What a field reads of members among which there is at most one of its name. -/
theorem Field.takes_iff {f : Field α} {ms : List (Option String × Document)} {a : α} :
    f.Takes ms a ↔ (valuesOf f.name ms).length ≤ 1 ∧ (Fields.one f).build .kept ms = .ok a := by
  rw [Takes, Fields.one]
  dsimp only
  rw [lookup_eq_head?]
  rcases valuesOf f.name ms with _ | ⟨d, _ | ⟨d', ds⟩⟩
  · cases f.missing with
    | none => simp
    | some b => simp
  · simp
  · simp

end Field

/-- A field of a record with its value. -/
structure Slot where
  /-- The type of the value. -/
  {α : Type}
  /-- The field. -/
  field : Field α
  /-- The value. -/
  value : α

namespace Slot

/-- A field that must be there, with its value. -/
def required {α : Type} (name : String) (format : Format α) (a : α) : Slot :=
  ⟨.required name format, a⟩

/-- A field whose value may be absent, with its value. -/
def omittable {α : Type} (name : String) (format : Format α) (a : Option α) : Slot :=
  ⟨.omittable name format, a⟩

/-- The name of the field. -/
def name (x : Slot) : String := x.field.name

/-- The value is the one that the field has among some members. -/
def Holds (x : Slot) (ms : List (Option String × Document)) : Prop := x.field.Takes ms x.value

/-- The field has a value among some members. -/
def Accepts (x : Slot) (ms : List (Option String × Document)) : Prop := x.field.Accepts ms

/-- A document reads as the field's type. -/
def Reads (x : Slot) (d : Document) : Prop := ∃ a, x.field.format.ofDocument .kept d = .ok a

/-- The fields that must be there. -/
def IsRequired (x : Slot) : Prop := x.field.missing.isNone = true

/-- What a field reads of some members, the first of its name if there are several. -/
def build (x : Slot) (ms : List (Option String × Document)) : Except DecodeFault x.α :=
  (Fields.one x.field).build .kept ms

/-- A field has a value if there is at most one member of its name and it reads it. -/
theorem accepts_iff {x : Slot} {ms : List (Option String × Document)} :
    x.Accepts ms ↔ (valuesOf x.name ms).length ≤ 1 ∧ ∃ a, x.build ms = .ok a := by
  constructor
  · rintro ⟨a, ha⟩
    exact ⟨(Field.takes_iff.mp ha).1, a, (Field.takes_iff.mp ha).2⟩
  · rintro ⟨hone, a, ha⟩
    exact ⟨a, Field.takes_iff.mpr ⟨hone, ha⟩⟩

/-- A field whose first value is readable reads it. -/
theorem reads_of_build {x : Slot} {ms : List (Option String × Document)} {a : x.α}
    (h : x.build ms = .ok a) {d : Document} (hd : (valuesOf x.name ms).head? = some d) :
    x.Reads d := by
  refine ⟨a, ?_⟩
  rw [build, Fields.one] at h
  dsimp only at h
  rw [lookup_eq_head?] at h
  rw [name] at hd
  rw [hd] at h
  exact h

end Slot

namespace Fields

variable {α β : Type}

/-- The fields of a record stand apart: their values are those of a list of slots, whose
names are distinct. -/
inductive Lays : {α : Type} → Fields α → (α → List Slot) → Prop
  /-- No field. -/
  | none : Lays .none fun _ => []
  /-- One field. -/
  | one {α : Type} (f : Field α) : Lays (.one f) fun a => [⟨f, a⟩]
  /-- The fields of one record and those of another, if they share no name. -/
  | and {α β : Type} {f : Fields α} {g : Fields β} {s : α → List Slot} {t : β → List Slot} :
    Lays f s → Lays g t → (∀ k ∈ f.names, k ∉ g.names) → Lays (f.and g) fun p => s p.1 ++ t p.2

/-- One field that must be there. -/
theorem Lays.required (name : String) (format : Format α) :
    Lays (Wire.required name format) fun a => [.required name format a] := .one _

/-- One field whose value may be absent. -/
theorem Lays.omittable (name : String) (format : Format α) :
    Lays (.one (.omittable name format)) fun a => [.omittable name format a] := .one _

namespace Lays

variable {f : Fields α} {s : α → List Slot}

/-- The slots have the names of the fields. -/
theorem map_name (h : f.Lays s) (a : α) : (s a).map Slot.name = f.names := by
  induction h with
  | none => rfl
  | one f => rfl
  | and hf hg hnames ihf ihg => rw [List.map_append, ihf, ihg, Fields.and]

/-- A slot has the name of a field. -/
theorem name_mem (h : f.Lays s) {a : α} {x : Slot} (hx : x ∈ s a) : x.name ∈ f.names :=
  h.map_name a ▸ List.mem_map_of_mem hx

/-- A slot is told by its name. -/
theorem eq_of_name (h : f.Lays s) {a : α} {x y : Slot} (hx : x ∈ s a) (hy : y ∈ s a)
    (hname : x.name = y.name) : x = y := by
  induction h with
  | none => cases hx
  | one f => rw [List.mem_singleton.mp hx, List.mem_singleton.mp hy]
  | and hf hg hnames ihf ihg =>
    rcases List.mem_append.mp hx with hx | hx <;> rcases List.mem_append.mp hy with hy | hy
    · exact ihf hx hy
    · exact absurd (hg.name_mem hy) (hname ▸ hnames _ (hf.name_mem hx))
    · exact absurd (hg.name_mem hx) (hname.symm ▸ hnames _ (hf.name_mem hy))
    · exact ihg hx hy

/-- A value can be read under a name if the slots of the name read it. -/
theorem check_iff (h : f.Lays s) (a : α) {k : String} {d : Document} :
    f.check k .kept d = .ok () ↔ ∀ x ∈ s a, x.name = k → x.Reads d := by
  induction h with
  | none => simp [Fields.none]
  | one f =>
    rw [List.forall_mem_singleton, Fields.one]
    dsimp only [Slot.name, Slot.Reads]
    by_cases hk : k = f.name
    · rw [if_pos hk, map_eq_ok]
      simp [hk]
    · rw [if_neg hk]
      exact iff_of_true rfl fun heq => absurd heq.symm hk
  | and hf hg hnames ihf ihg =>
    rw [List.forall_mem_append, ← ihf a.1, ← ihg a.2]
    exact bind_eq_ok.trans ⟨fun ⟨_, hl, hr⟩ => ⟨hl, hr⟩, fun ⟨hl, hr⟩ => ⟨(), hl, hr⟩⟩

/-- A record is built of the values that the slots read. -/
theorem build_iff (h : f.Lays s) {a : α} {ms : List (Option String × Document)} :
    f.build .kept ms = .ok a ↔ ∀ x ∈ s a, x.build ms = .ok x.value := by
  induction h with
  | none => exact iff_of_true rfl nofun
  | one f => rw [List.forall_mem_singleton, Slot.build]
  | and hf hg hnames ihf ihg =>
    rw [List.forall_mem_append, ← ihf, ← ihg]
    constructor
    · intro hboth
      obtain ⟨b, hb, hrest⟩ := bind_eq_ok.mp hboth
      obtain ⟨c, hc, hpair⟩ := bind_eq_ok.mp hrest
      cases hpair
      exact ⟨hb, hc⟩
    · rintro ⟨hb, hc⟩
      exact bind_eq_ok.mpr ⟨_, hb, bind_eq_ok.mpr ⟨_, hc, rfl⟩⟩

/-- A record can be built if every slot reads a value. -/
theorem build_exists (h : f.Lays s) (a : α) {ms : List (Option String × Document)} :
    (∃ b, f.build .kept ms = .ok b) ↔ ∀ x ∈ s a, ∃ v, x.build ms = .ok v := by
  induction h with
  | none => exact iff_of_true ⟨(), rfl⟩ nofun
  | one f => rw [List.forall_mem_singleton, Slot.build]
  | and hf hg hnames ihf ihg =>
    rw [List.forall_mem_append, ← ihf, ← ihg]
    constructor
    · rintro ⟨p, hboth⟩
      obtain ⟨b, hb, hrest⟩ := bind_eq_ok.mp hboth
      obtain ⟨c, hc, -⟩ := bind_eq_ok.mp hrest
      exact ⟨⟨b, hb⟩, c, hc⟩
    · rintro ⟨⟨b, hb⟩, c, hc⟩
      exact ⟨(b, c), bind_eq_ok.mpr ⟨b, hb, bind_eq_ok.mpr ⟨c, hc, rfl⟩⟩⟩

/-- A field that must be there and is not is told, if every other slot reads a value. -/
theorem build_missing (h : f.Lays s) {a : α} {ms : List (Option String × Document)} {x : Slot}
    (hx : x ∈ s a) (hrequired : x.IsRequired) (hnone : valuesOf x.name ms = [])
    (hothers : ∀ y ∈ s a, y.name ≠ x.name → ∃ v, y.build ms = .ok v) :
    f.build .kept ms = .error (.missingField x.name) := by
  induction h with
  | none => cases hx
  | one f =>
    obtain rfl := List.mem_singleton.mp hx
    have hlookup : ms.lookup (some f.name) = .none := by
      rw [lookup_eq_head?]
      exact congrArg List.head? hnone
    have hmissing : f.missing = .none := Option.isNone_iff_eq_none.mp hrequired
    rw [Fields.one]
    dsimp only
    rw [hlookup, hmissing]
    rfl
  | @and _ _ f g s t hf hg hnames ihf ihg =>
    rw [Fields.and]
    dsimp only
    obtain ⟨hl, hr⟩ := List.forall_mem_append.mp hothers
    rcases List.mem_append.mp hx with hx | hx
    · rw [ihf hx hl]
      rfl
    · -- The fields of the first record have other names.
      have hleft : ∀ y ∈ s a.1, ∃ v, y.build ms = .ok v := fun y hy =>
        hl y hy fun heq => hnames y.name (hf.name_mem hy) (heq ▸ hg.name_mem hx)
      obtain ⟨b, hb⟩ := (hf.build_exists _).mpr hleft
      rw [hb, ok_bind, ihg hx hr]
      rfl

end Lays

/-- The members of a field can be gone through: there is at most one, none if the name has
been met, and its value can be read. -/
structure Once (f : Fields α) (met : List String) (ms : List (Option String × Document))
    (k : String) : Prop where
  /-- A name that has been met does not come again. -/
  fresh : k ∈ met → valuesOf k ms = []
  /-- There is at most one member of the name. -/
  length_le : (valuesOf k ms).length ≤ 1
  /-- Its value can be read. -/
  check : ∀ d ∈ valuesOf k ms, f.check k .kept d = .ok ()

variable {f : Fields α} {met : List String} {ms : List (Option String × Document)}

/-- A member of another name does not matter. -/
theorem once_cons_of_ne {k k' : String} (h : k' ≠ k) (d : Document) :
    f.Once met ((some k', d) :: ms) k ↔ f.Once met ms k := by
  have hvalues : valuesOf k ((some k', d) :: ms) = valuesOf k ms :=
    valuesOf_cons_of_ne (fun heq => h (Option.some.inj heq)) ms
  constructor
  · exact fun ho => ⟨hvalues ▸ ho.fresh, hvalues ▸ ho.length_le, hvalues ▸ ho.check⟩
  · exact fun ho => ⟨hvalues.symm ▸ ho.fresh, hvalues.symm ▸ ho.length_le, hvalues.symm ▸ ho.check⟩

/-- Another name that has been met does not matter. -/
theorem once_met_of_ne {k k' : String} (h : k' ≠ k) :
    f.Once (k' :: met) ms k ↔ f.Once met ms k := by
  have hmet : k ∈ k' :: met ↔ k ∈ met := by
    rw [List.mem_cons]
    exact or_iff_right h.symm
  exact ⟨fun ho => ⟨fun hk => ho.fresh (hmet.mpr hk), ho.length_le, ho.check⟩,
    fun ho => ⟨fun hk => ho.fresh (hmet.mp hk), ho.length_le, ho.check⟩⟩

/-- A member of the name is the only one, and comes before the name has been met. -/
theorem once_cons_self {k : String} {d : Document} :
    f.Once met ((some k, d) :: ms) k ↔
      k ∉ met ∧ f.check k .kept d = .ok () ∧ f.Once (k :: met) ms k := by
  have hvalues := valuesOf_cons_self k d ms
  constructor
  · intro ho
    have hnil : valuesOf k ms = [] := by
      have hlength := ho.length_le
      rw [hvalues, List.length_cons] at hlength
      exact List.length_eq_zero_iff.mp (by omega)
    refine ⟨fun hk => ?_, ho.check d (hvalues ▸ List.mem_cons_self), fun _ => hnil, ?_, ?_⟩
    · have hfresh := ho.fresh hk
      rw [hvalues] at hfresh
      cases hfresh
    · rw [hnil]
      exact Nat.zero_le 1
    · rw [hnil]
      exact nofun
  · rintro ⟨hk, hd, ho⟩
    have hnil : valuesOf k ms = [] := ho.fresh List.mem_cons_self
    refine ⟨fun hmem => absurd hmem hk, ?_, fun d' hd' => ?_⟩
    · rw [hvalues, hnil]
      exact Nat.le_refl 1
    · rw [hvalues, hnil, List.mem_singleton] at hd'
      exact hd' ▸ hd

/-- Members are gone through without a fault if those of each field are. -/
theorem scan_eq_ok_iff (hms : Named ms) :
    f.scan .kept met ms = .ok () ↔ ∀ k ∈ f.names, f.Once met ms k := by
  induction ms generalizing met with
  | nil => exact iff_of_true rfl fun k _ => ⟨fun _ => rfl, Nat.zero_le 1, nofun⟩
  | cons m ms ih =>
    obtain ⟨⟨hkey, hwhole⟩, hrest⟩ := List.forall_mem_cons.mp hms
    obtain ⟨_ | k', d⟩ := m
    · cases hkey
    rw [scan]
    by_cases hname : k' ∈ f.names
    · rw [if_pos hname]
      by_cases hmet : k' ∈ met
      · rw [if_pos hmet]
        exact iff_of_false nofun fun h => (once_cons_self.mp (h k' hname)).1 hmet
      · rw [if_neg hmet]
        refine bind_eq_ok.trans ⟨?_, fun h => ?_⟩
        · rintro ⟨_, hd, hscan⟩ k hk
          have ho := (ih hrest).mp hscan k hk
          by_cases heq : k' = k
          · subst heq
            exact once_cons_self.mpr ⟨hmet, hd, ho⟩
          · exact (once_cons_of_ne heq d).mpr ((once_met_of_ne heq).mp ho)
        · obtain ⟨-, hd, -⟩ := once_cons_self.mp (h k' hname)
          refine ⟨(), hd, (ih hrest).mpr fun k hk => ?_⟩
          by_cases heq : k' = k
          · subst heq
            exact (once_cons_self.mp (h k' hk)).2.2
          · exact (once_met_of_ne heq).mpr ((once_cons_of_ne heq d).mp (h k hk))
    · rw [if_neg hname, if_pos hwhole, ih hrest]
      refine forall_congr' fun k => forall_congr' fun hk => ?_
      have hne : k' ≠ k := fun heq => hname (heq ▸ hk)
      exact (once_cons_of_ne hne d).symm

/-- A name that comes again is told, if the members of all other fields are as they should
be and the first value of the name can be read. -/
theorem scan_repeated (hms : Named ms) {k : String} (hk : k ∈ f.names)
    (hothers : ∀ k' ∈ f.names, k' ≠ k → f.Once met ms k')
    (hagain : k ∈ met ∧ valuesOf k ms ≠ [] ∨
      k ∉ met ∧ ∃ d, (valuesOf k ms).head? = some d ∧ f.check k .kept d = .ok () ∧
        2 ≤ (valuesOf k ms).length) :
    f.scan .kept met ms = .error (.duplicateField k) := by
  induction ms generalizing met with
  | nil =>
    rcases hagain with ⟨-, hne⟩ | ⟨-, d, hd, -⟩
    · exact absurd rfl hne
    · cases hd
  | cons m ms ih =>
    obtain ⟨⟨hkey, hwhole⟩, hrest⟩ := List.forall_mem_cons.mp hms
    obtain ⟨_ | k', d⟩ := m
    · cases hkey
    rw [scan]
    by_cases heq : k' = k
    · subst heq
      rw [if_pos hk]
      rcases hagain with ⟨hmet, -⟩ | ⟨hmet, d', hhead, hd, hlength⟩
      · rw [if_pos hmet]
      · rw [valuesOf_cons_self] at hhead hlength
        cases hhead
        rw [if_neg hmet, hd, ok_bind]
        refine ih hrest (fun k hk hne => ?_) (.inl ⟨List.mem_cons_self, fun hnil => ?_⟩)
        · have ho := (once_cons_of_ne hne.symm d).mp (hothers k hk hne)
          exact (once_met_of_ne hne.symm).mpr ho
        · rw [hnil] at hlength
          cases hlength with
          | step h => cases h
    · have hvalues : valuesOf k ((some k', d) :: ms) = valuesOf k ms :=
        valuesOf_cons_of_ne (fun h => heq (Option.some.inj h)) ms
      rw [hvalues] at hagain
      by_cases hname : k' ∈ f.names
      · obtain ⟨hmet, hd, -⟩ := once_cons_self.mp (hothers k' hname heq)
        have hmem : k ∈ k' :: met ↔ k ∈ met := by
          rw [List.mem_cons]
          exact or_iff_right (Ne.symm heq)
        rw [if_pos hname, if_neg hmet, hd, ok_bind]
        refine ih hrest (fun k'' hk'' hne => ?_) (by rwa [hmem])
        by_cases heq' : k' = k''
        · subst heq'
          exact (once_cons_self.mp (hothers k' hk'' hne)).2.2
        · exact (once_met_of_ne heq').mpr ((once_cons_of_ne heq' d).mp (hothers k'' hk'' hne))
      · rw [if_neg hname, if_pos hwhole]
        refine ih hrest (fun k'' hk'' hne => ?_) hagain
        have hne' : k' ≠ k'' := fun heq => hname (heq ▸ hk'')
        exact (once_cons_of_ne hne' d).mp (hothers k'' hk'' hne)

namespace Lays

variable {s : α → List Slot} (h : f.Lays s)
include h

/-- The members of a field are gone through if the slots of its name read their first
value and there is no other. -/
theorem once_of_accepts (a : α) {k : String} (hk : k ∈ f.names)
    (haccepts : ∀ x ∈ s a, x.name = k → x.Accepts ms) : f.Once [] ms k := by
  have hone : (valuesOf k ms).length ≤ 1 := by
    rw [← h.map_name a] at hk
    obtain ⟨x, hx, rfl⟩ := List.mem_map.mp hk
    exact (Slot.accepts_iff.mp (haccepts x hx rfl)).1
  refine ⟨nofun, hone, fun d hd => (h.check_iff a).mpr fun x hx hname => ?_⟩
  obtain ⟨-, v, hv⟩ := Slot.accepts_iff.mp (haccepts x hx hname)
  refine Slot.reads_of_build hv ?_
  rw [hname]
  exact head?_of_mem hone hd

variable (hms : Named ms)
include hms

/-- A record is read if its slots have their values among the members. -/
theorem ofMembers_iff {a : α} :
    f.ofMembers .kept ms true = .ok a ↔ ∀ x ∈ s a, x.Holds ms := by
  rw [ofMembers, if_pos rfl, bind_eq_ok]
  constructor
  · rintro ⟨_, hscan, hbuild⟩ x hx
    have hone := (scan_eq_ok_iff hms).mp hscan x.name (h.name_mem hx)
    exact Field.takes_iff.mpr ⟨hone.length_le, h.build_iff.mp hbuild x hx⟩
  · intro hholds
    refine ⟨(), (scan_eq_ok_iff hms).mpr fun k hk => ?_, h.build_iff.mpr fun x hx => ?_⟩
    · exact h.once_of_accepts a hk fun x hx _ => ⟨x.value, hholds x hx⟩
    · exact (Field.takes_iff.mp (hholds x hx)).2

/-- Some record is read if every slot accepts the members. -/
theorem ofMembers_exists (a : α) :
    (∃ b, f.ofMembers .kept ms true = .ok b) ↔ ∀ x ∈ s a, x.Accepts ms := by
  simp only [ofMembers, if_true, bind_eq_ok]
  constructor
  · rintro ⟨b, _, hscan, hbuild⟩ x hx
    have hone := (scan_eq_ok_iff hms).mp hscan x.name (h.name_mem hx)
    exact Slot.accepts_iff.mpr ⟨hone.length_le, (h.build_exists a).mp ⟨b, hbuild⟩ x hx⟩
  · intro haccepts
    obtain ⟨b, hb⟩ := (h.build_exists a).mpr fun x hx => (Slot.accepts_iff.mp (haccepts x hx)).2
    refine ⟨b, (), (scan_eq_ok_iff hms).mpr fun k hk => ?_, hb⟩
    exact h.once_of_accepts a hk fun x hx _ => haccepts x hx

/-- A field that must be there and is not is told by its name, if all others accept the
members. -/
theorem ofMembers_missing {a : α} {x : Slot} (hx : x ∈ s a) (hrequired : x.IsRequired)
    (hnone : valuesOf x.name ms = []) (hothers : ∀ y ∈ s a, y.name ≠ x.name → y.Accepts ms) :
    f.ofMembers .kept ms true = .error (.missingField x.name) := by
  have hscan : f.scan .kept [] ms = .ok () := (scan_eq_ok_iff hms).mpr fun k hk => by
    by_cases hname : k = x.name
    · exact ⟨nofun, by rw [hname, hnone]; exact Nat.zero_le 1, by rw [hname, hnone]; exact nofun⟩
    · exact h.once_of_accepts a hk fun y hy hk' => hothers y hy (hk' ▸ hname)
  rw [ofMembers, hscan, ok_bind, if_pos rfl]
  refine h.build_missing hx hrequired hnone fun y hy hname => ?_
  exact (Slot.accepts_iff.mp (hothers y hy hname)).2

/-- A field that stands twice is told by its name, if it reads the first value and all
others accept the members. -/
theorem ofMembers_repeated {a : α} {x : Slot} (hx : x ∈ s a) {d d' : Document}
    {ds : List Document} (hvalues : valuesOf x.name ms = d :: d' :: ds) (hread : x.Reads d)
    (hothers : ∀ y ∈ s a, y.name ≠ x.name → y.Accepts ms) :
    f.ofMembers .kept ms true = .error (.duplicateField x.name) := by
  have hcheck : f.check x.name .kept d = .ok () :=
    (h.check_iff a).mpr fun y hy hname => h.eq_of_name hx hy hname.symm ▸ hread
  have hscan : f.scan .kept [] ms = .error (.duplicateField x.name) := by
    refine scan_repeated hms (h.name_mem hx) (fun k hk hne => ?_) (.inr ⟨List.not_mem_nil, d, ?_⟩)
    · exact h.once_of_accepts a hk fun y hy hk' => hothers y hy (hk' ▸ hne)
    · rw [hvalues]
      exact ⟨rfl, hcheck, Nat.le_add_left 2 ds.length⟩
  rw [ofMembers, hscan]
  rfl

end Lays

end Fields

end RatingServer.Wire
