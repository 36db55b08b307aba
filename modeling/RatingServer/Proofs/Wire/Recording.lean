import RatingServer.Proofs.Wire.Legible
import RatingServer.Snapshot

/-!
# Records that read what they write

The fields of a record are legible when the members that they write are read again
as the record, whatever other members stand between them. The law is kept by the
ways of putting fields together, and makes the format of the record legible.
-/

namespace RatingServer.Wire

open Json (Document toMembers fitsWord)
open Decimal (Number)

variable {α β : Type}

/-- The law of the fields of a record of which a reader sees something. -/
structure Fields.Legible {α : Type} (f : Fields α) (depth : Nat) (seen : α → α) : Prop where
  /-- Members are written under the names of the fields. -/
  member_names : ∀ a, ∀ m ∈ f.members a, m.1 ∈ f.names
  /-- No name is written twice. -/
  members_nodup : ∀ a, ((f.members a).map (·.1)).Nodup
  /-- Written members pass the check of their values. -/
  check_member : ∀ src a, ∀ m ∈ f.members a, f.check m.1 src m.2.toDocument = .ok ()
  /-- Members of other names are not checked. -/
  check_other : ∀ name src d, name ∉ f.names → f.check name src d = .ok ()
  /-- The record is built from members that answer as the written ones do. -/
  build_members : ∀ src a ms,
    (∀ k ∈ f.names, ms.lookup (some k) = (toMembers (f.members a)).lookup (some k)) →
      f.build src ms = .ok (seen a)
  /-- Written members can be kept within the depth. -/
  kept_member : ∀ a n, depth ≤ n → ∀ m ∈ f.members a, m.2.toDocument.isKept n = true
  /-- The written integers fit. -/
  fits_member : ∀ a, ∀ m ∈ f.members a, ∀ k, Number.integer k ∈ m.2.numbers → fitsWord k = true
  /-- What was built holds only numbers of the members. -/
  shown_build : ∀ src ms a, f.build src ms = .ok a →
    ∀ m ∈ f.members a, ∀ x, Holds m.2 x → ∃ m' ∈ ms, Shows m'.2 x
  /-- The items after the fields are items that were given. -/
  take_rest : ∀ src whole ds a rest, f.take src whole ds = .ok (a, rest) → rest ⊆ ds
  /-- What was read from a list holds only numbers of its items. -/
  shown_take : ∀ src whole ds a rest, f.take src whole ds = .ok (a, rest) →
    ∀ m ∈ f.members a, ∀ x, Holds m.2 x → ∃ d ∈ ds, Shows d x

namespace Fields.Legible

variable {f : Fields α} {g : Fields β} {m n : Nat} {seen : α → α} {seen' : β → β}

/-- No field. -/
theorem none : Fields.none.Legible m id where
  member_names _ _ hm := by cases hm
  members_nodup _ := .nil
  check_member _ _ _ hm := by cases hm
  check_other _ _ _ _ := rfl
  build_members _ _ _ _ := rfl
  kept_member _ _ _ _ hm := by cases hm
  fits_member _ _ hm := by cases hm
  shown_build _ _ _ _ _ hm := by cases hm
  take_rest _ _ ds _ rest h := by
    cases h
    exact fun _ hd => hd
  shown_take _ _ _ _ _ _ _ hm := by cases hm

/-- One field. What stands for a missing value must be left out in writing or hold no
floating-point number. -/
theorem one {f : Field α} (h : Wire.Legible f.format m)
    (homitted : ∀ a, f.omitted a = true → f.missing = some a)
    (hmissing : ∀ a, f.missing = some a → ∀ x, ¬ Holds (f.format.toJson a) x)
    (hcut : ∀ a, f.cut = some a → ∀ x, ¬ Holds (f.format.toJson a) x) :
    (Fields.one f).Legible m id := by
  have hmem : ∀ {a : α} {e : String × Json}, e ∈ (Fields.one f).members a →
      e = (f.name, f.format.toJson a) := by
    intro a e he
    simp only [Fields.one] at he
    split at he
    · cases he
    · exact List.mem_singleton.mp he
  exact {
    member_names := fun a e he => by
      rw [hmem he]
      exact List.mem_singleton.mpr rfl
    members_nodup := fun a => by
      simp only [Fields.one]
      split <;> simp
    check_member := fun src a e he => by
      rw [hmem he]
      simp only [Fields.one, if_true, h.read_written, Except.map]
    check_other := fun name src d hname => by
      have hne : name ≠ f.name := fun heq => hname (List.mem_singleton.mpr heq)
      simp only [Fields.one, if_neg hne]
    build_members := fun src a ms hms => by
      have hlookup := hms f.name (List.mem_singleton.mpr rfl)
      simp only [Fields.one] at hlookup ⊢
      by_cases hom : f.omitted a = true
      · have hnone : (toMembers ([] : List (String × Json))).lookup (some f.name) = .none := rfl
        rw [if_pos hom, hnone] at hlookup
        rw [hlookup, homitted a hom]
        rfl
      · have hsome : (toMembers [(f.name, f.format.toJson a)]).lookup (some f.name) =
            some (f.format.toJson a).toDocument := by
          simp [toMembers]
        rw [if_neg hom, hsome] at hlookup
        rw [hlookup]
        exact h.read_written src a
    kept_member := fun a n hn e he => by
      rw [hmem he]
      exact h.kept_written a n hn
    fits_member := fun a e he k hk => by
      rw [hmem he] at hk
      exact h.fits_written a k hk
    shown_build := fun src ms a ha e he x hx => by
      rw [hmem he] at hx
      simp only [Fields.one] at ha
      split at ha
      · rename_i d hd
        obtain ⟨n, hn, hnx⟩ := h.shown_read src d a ha x hx
        obtain ⟨before, after, hms, -⟩ := List.lookup_eq_some_iff.mp hd
        exact ⟨(some f.name, d), by rw [hms]; simp, n, hn, hnx⟩
      · split at ha
        · cases ha
          exact absurd hx (hmissing a ‹_› x)
        · cases ha
    take_rest := fun src whole ds a rest ha => by
      cases ds with
      | nil =>
        simp only [Fields.one] at ha
        split at ha
        · split at ha <;> cases ha
          exact fun _ hd => hd
        · cases ha
      | cons d ds =>
        obtain ⟨b, -, hba⟩ := map_eq_ok.mp ha
        cases hba
        exact List.subset_cons_self _ _
    shown_take := fun src whole ds a rest ha e he x hx => by
      rw [hmem he] at hx
      cases ds with
      | nil =>
        simp only [Fields.one] at ha
        split at ha
        · split at ha <;> cases ha
          exact absurd hx (hcut a ‹_› x)
        · cases ha
      | cons d ds =>
        obtain ⟨b, hb, hba⟩ := map_eq_ok.mp ha
        cases hba
        exact ⟨d, List.mem_cons_self, h.shown_read src d a hb x hx⟩ }

/-- A field that must be there. -/
theorem required {f : Format α} (name : String) (h : Wire.Legible f m) :
    (Wire.required name f).Legible m id :=
  one h (fun _ ha => by cases ha) (fun _ ha => by cases ha) fun _ ha => by cases ha

/-- A field whose value may be absent. -/
theorem optional {f : Format α} (name : String) (h : Wire.Legible f m)
    (hnull : ∀ a, f.toJson a ≠ .null) : (Fields.one (.optional name f)).Legible m id :=
  one (h.option hnull) (fun _ ha => by cases ha)
    (fun _ ha _ hx => by cases ha; cases hx) fun _ ha => by cases ha

/-- A field whose value is left out when it is absent. -/
theorem omittable {f : Format α} (name : String) (h : Wire.Legible f m)
    (hnull : ∀ a, f.toJson a ≠ .null) : (Fields.one (.omittable name f)).Legible m id :=
  one (h.option hnull) (fun a ha => by rw [Option.isNone_iff_eq_none.mp ha]; rfl)
    (fun _ ha _ hx => by cases ha; cases hx) fun _ ha => by cases ha

/-- A name that no member has is not found among the members. -/
theorem lookup_toMembers_eq_none {ms : List (String × Json)} {k : String}
    (h : ∀ m ∈ ms, m.1 ≠ k) : (toMembers ms).lookup (some k) = .none := by
  rw [Json.toMembers_eq, List.lookup_eq_none_iff]
  intro p hp
  obtain ⟨m, hm, rfl⟩ := List.mem_map.mp hp
  simpa using (h m hm).symm

/-- The fields of one record and then those of another, if they share no name. -/
theorem and (hf : f.Legible m seen) (hg : g.Legible m seen')
    (hnames : ∀ k ∈ f.names, k ∉ g.names) :
    (f.and g).Legible m fun p => (seen p.1, seen' p.2) where
  member_names p e he := by
    rcases List.mem_append.mp he with he | he
    · exact List.mem_append_left _ (hf.member_names p.1 e he)
    · exact List.mem_append_right _ (hg.member_names p.2 e he)
  members_nodup p := by
    simp only [Fields.and, List.map_append]
    refine List.nodup_append.mpr ⟨hf.members_nodup p.1, hg.members_nodup p.2, ?_⟩
    intro k hk k' hk' heq
    obtain ⟨e, he, rfl⟩ := List.mem_map.mp hk
    obtain ⟨e', he', rfl⟩ := List.mem_map.mp hk'
    exact hnames e.1 (hf.member_names p.1 e he) (heq ▸ hg.member_names p.2 e' he')
  check_member src p e he := by
    simp only [Fields.and]
    rcases List.mem_append.mp he with he | he
    · have hother := hnames e.1 (hf.member_names p.1 e he)
      rw [hf.check_member src p.1 e he, ok_bind, hg.check_other e.1 src _ hother]
    · have hother : e.1 ∉ f.names := fun h => hnames e.1 h (hg.member_names p.2 e he)
      rw [hf.check_other e.1 src _ hother, ok_bind, hg.check_member src p.2 e he]
  check_other name src d hname := by
    simp only [Fields.and] at hname ⊢
    rw [List.mem_append, not_or] at hname
    rw [hf.check_other name src d hname.1, ok_bind, hg.check_other name src d hname.2]
  build_members src p ms hms := by
    have hleft : ∀ k ∈ f.names,
        ms.lookup (some k) = (toMembers (f.members p.1)).lookup (some k) := by
      intro k hk
      have hother : (toMembers (g.members p.2)).lookup (some k) = .none :=
        lookup_toMembers_eq_none fun e he heq =>
          hnames k hk (heq ▸ hg.member_names p.2 e he)
      rw [hms k (List.mem_append_left _ hk)]
      simp only [Fields.and]
      rw [Json.toMembers_eq, List.map_append, List.lookup_append, ← Json.toMembers_eq,
        ← Json.toMembers_eq, hother, Option.or_none]
    have hright : ∀ k ∈ g.names,
        ms.lookup (some k) = (toMembers (g.members p.2)).lookup (some k) := by
      intro k hk
      have hother : (toMembers (f.members p.1)).lookup (some k) = .none :=
        lookup_toMembers_eq_none fun e he heq =>
          hnames k (heq ▸ hf.member_names p.1 e he) hk
      rw [hms k (List.mem_append_right _ hk)]
      simp only [Fields.and]
      rw [Json.toMembers_eq, List.map_append, List.lookup_append, ← Json.toMembers_eq,
        ← Json.toMembers_eq, hother, Option.none_or]
    simp only [Fields.and]
    rw [hf.build_members src p.1 ms hleft, ok_bind, hg.build_members src p.2 ms hright]
    rfl
  kept_member p n hn e he := by
    rcases List.mem_append.mp he with he | he
    · exact hf.kept_member p.1 n hn e he
    · exact hg.kept_member p.2 n hn e he
  fits_member p e he := by
    rcases List.mem_append.mp he with he | he
    · exact hf.fits_member p.1 e he
    · exact hg.fits_member p.2 e he
  shown_build src ms p hp e he x hx := by
    simp only [Fields.and] at hp
    obtain ⟨a, ha, hp⟩ := bind_eq_ok.mp hp
    obtain ⟨b, hb, hp⟩ := bind_eq_ok.mp hp
    cases hp
    rcases List.mem_append.mp he with he | he
    · exact hf.shown_build src ms a ha e he x hx
    · exact hg.shown_build src ms b hb e he x hx
  take_rest src whole ds p rest hp := by
    simp only [Fields.and] at hp
    obtain ⟨a, ha, hp⟩ := bind_eq_ok.mp hp
    obtain ⟨b, hb, hp⟩ := bind_eq_ok.mp hp
    cases hp
    exact fun d hd => hf.take_rest src whole ds _ _ ha (hg.take_rest src whole _ _ _ hb hd)
  shown_take src whole ds p rest hp e he x hx := by
    simp only [Fields.and] at hp
    obtain ⟨a, ha, hp⟩ := bind_eq_ok.mp hp
    obtain ⟨b, hb, hp⟩ := bind_eq_ok.mp hp
    cases hp
    rcases List.mem_append.mp he with he | he
    · exact hf.shown_take src whole ds _ _ ha e he x hx
    · obtain ⟨d, hd, hdx⟩ := hg.shown_take src whole _ _ _ hb e he x hx
      exact ⟨d, hf.take_rest src whole ds _ _ ha hd, hdx⟩

/-- The fields of a type whose values stand for those of another. -/
theorem map (hf : f.Legible m seen) {make : α → β} {view : β → α} {seen' : β → β}
    (hmake : ∀ b, make (seen (view b)) = seen' b) (hview : ∀ a, view (make a) = a) :
    (f.map make view).Legible m seen' where
  member_names b := hf.member_names (view b)
  members_nodup b := hf.members_nodup (view b)
  check_member src b := hf.check_member src (view b)
  check_other := hf.check_other
  build_members src b ms hms := by
    simp only [Fields.map]
    rw [hf.build_members src (view b) ms hms]
    simp only [Except.map, hmake]
  kept_member b := hf.kept_member (view b)
  fits_member b := hf.fits_member (view b)
  shown_build src ms b hb e he x hx := by
    obtain ⟨a, ha, rfl⟩ := map_eq_ok.mp hb
    simp only [Fields.map, hview] at he
    exact hf.shown_build src ms a ha e he x hx
  take_rest src whole ds b rest hb := by
    obtain ⟨r, hr, hrb⟩ := map_eq_ok.mp hb
    cases hrb
    exact hf.take_rest src whole ds _ _ hr
  shown_take src whole ds b rest hb e he x hx := by
    obtain ⟨r, hr, hrb⟩ := map_eq_ok.mp hb
    cases hrb
    simp only [Fields.map, hview] at he
    exact hf.shown_take src whole ds _ _ hr e he x hx

/-- Written members are gone through without a fault. -/
theorem scan_members {src : Source} {met : List String} {ms : List (String × Json)}
    (hnames : ∀ m ∈ ms, m.1 ∈ f.names) (hdistinct : (ms.map (·.1)).Nodup)
    (hmet : ∀ m ∈ ms, m.1 ∉ met)
    (hcheck : ∀ m ∈ ms, f.check m.1 src m.2.toDocument = .ok ()) :
    f.scan src met (toMembers ms) = .ok () := by
  induction ms generalizing met with
  | nil => rfl
  | cons m ms ih =>
    obtain ⟨k, j⟩ := m
    rw [List.map_cons, List.nodup_cons] at hdistinct
    have hk : k ∈ f.names := hnames (k, j) List.mem_cons_self
    have hkmet : k ∉ met := hmet (k, j) List.mem_cons_self
    have hkcheck : f.check k src j.toDocument = .ok () := hcheck (k, j) List.mem_cons_self
    rw [toMembers, Fields.scan, if_pos hk, if_neg hkmet, hkcheck, ok_bind]
    refine ih (fun m hm => hnames m (List.mem_cons_of_mem _ hm)) hdistinct.2 (fun m hm => ?_)
      fun m hm => hcheck m (List.mem_cons_of_mem _ hm)
    rw [List.mem_cons, not_or]
    refine ⟨fun heq => hdistinct.1 ?_, hmet m (List.mem_cons_of_mem _ hm)⟩
    rw [← show m.1 = k from heq]
    exact List.mem_map_of_mem (f := (·.1)) hm

/-- The written members are read as the record. -/
theorem ofMembers_members (hf : f.Legible m seen) (src : Source) (a : α) :
    f.ofMembers src (toMembers (f.members a)) true = .ok (seen a) := by
  rw [Fields.ofMembers, scan_members (hf.member_names a) (hf.members_nodup a)
    (fun _ _ => List.not_mem_nil) (hf.check_member src a), ok_bind, if_pos rfl]
  exact hf.build_members src a _ fun _ _ => rfl

/-- A record that was read from members holds only numbers of the members. -/
theorem shown_ofMembers (hf : f.Legible m seen) {src : Source}
    {ms : List (Option String × Document)} {whole : Bool} {a : α}
    (h : f.ofMembers src ms whole = .ok a) {e : String × Json} (he : e ∈ f.members a) {x : Double}
    (hx : Holds e.2 x) : ∃ m' ∈ ms, Shows m'.2 x := by
  rw [Fields.ofMembers] at h
  obtain ⟨_, -, h⟩ := bind_eq_ok.mp h
  split at h
  · exact hf.shown_build src ms a h e he x hx
  · cases h

/-- The format of a record with legible fields. -/
theorem format (hf : f.Legible m seen) : LegibleAs f.format (m + 1) seen where
  read_written src a := hf.ofMembers_members src a
  kept_written a n hn := by
    show (Json.obj (f.members a)).toDocument.isKept n = true
    rw [Json.toDocument, Document.isKept, Json.toMembers_eq, Bool.and_eq_true, Bool.and_eq_true,
      decide_eq_true_eq, Json.membersKept_iff]
    refine ⟨⟨by omega, rfl⟩, fun d hd => ?_⟩
    obtain ⟨e, he, rfl⟩ := List.mem_map.mp hd
    exact ⟨rfl, hf.kept_member a (n - 1) (by omega) e he⟩
  fits_written a k hk := by
    obtain ⟨e, he, hk⟩ := Json.mem_numbers_obj.mp hk
    exact hf.fits_member a e he k hk
  shown_read src d a ha x hx := by
    obtain ⟨e, he, hvalue⟩ := Json.mem_numbers_obj.mp hx
    simp only [Fields.format] at ha
    unfold Fields.ofDocument at ha
    split at ha
    · obtain ⟨m', hm', n, hn, hnx⟩ := hf.shown_ofMembers ha he hvalue
      exact ⟨n, Json.Document.mem_numbers_obj hm' hn, hnx⟩
    · rename_i items whole
      rw [Fields.ofItems] at ha
      obtain ⟨r, hr, ha⟩ := bind_eq_ok.mp ha
      have hra : r.1 = a := by
        obtain ⟨b, surplus⟩ := r
        dsimp only at ha
        split at ha
        · cases ha
        · split at ha
          · exact Except.ok.inj ha
          · cases ha
      subst hra
      obtain ⟨d, hd, n, hn, hnx⟩ := hf.shown_take _ _ items r.1 r.2 hr e he x hvalue
      exact ⟨n, Json.Document.mem_numbers_arr hd hn, hnx⟩
    · cases ha

/-- A record is never written as null. -/
theorem format_ne_null (f : Fields α) (a : α) : f.format.toJson a ≠ .null := fun h => by cases h

end Fields.Legible

/-- Of the rows that a query found a reader sees a cursor before the first one. -/
theorem legibleAs_rows {f : Format α} {m : Nat} (h : Legible f m) :
    LegibleAs (RowCursor.format f) (m + 2) RowCursor.reset :=
  ((Fields.Legible.required "rows" h.list).map (fun _ => rfl) fun _ => rfl).format

end RatingServer.Wire
