import RatingServer.Proofs.Store.Profiles

/-!
# Lookups by external values

Another system knows a profile by a value that an external record carries. Records and
profiles are written apart from each other, so that several records may carry one value
and some may dangle: the profile at which they point is not there. A lookup follows the
first record that carries its value and no other, so that it never answers a wrong
profile, but misses one at which only later records point. Where every record comes with
a profile none dangles, and no profile is missed.
-/

namespace RatingServer

namespace Dataset

/-- A record carries a value for the profiles of a unit. -/
def Carries (d : Dataset) (unit value : String) (i : InternalRecord) : Prop :=
  i.unit = unit ∧ ∃ e, d.external.get? i = some e ∧ e.value = value

/-- The first record that carries a value for the profiles of a unit. -/
structure FirstCarries (d : Dataset) (unit value : String) (i : InternalRecord) : Prop where
  /-- It carries the value. -/
  carries : d.Carries unit value i
  /-- All others come after it. -/
  first : ∀ j, d.Carries unit value j → j = i ∨ compare i j = .lt

/-- A profile is the one at which a record points. -/
def PointsAt (d : Dataset) (i : InternalRecord) (p : Profile) : Prop :=
  d.profile? i.unit i.value = some p

/-- The profile at which a record points is not there. -/
def Dangles (d : Dataset) (i : InternalRecord) : Prop := d.profile? i.unit i.value = none

/-- The entries that carry a value are found by a test. -/
theorem carries_iff {d : Dataset} {unit value : String} {i : InternalRecord} :
    d.Carries unit value i ↔
      ∃ e, (i, e) ∈ d.external.entries ∧ (i.unit = unit && e.value = value) = true := by
  simp only [Carries, Table.get?_eq_some_iff, Bool.and_eq_true, decide_eq_true_eq]
  constructor
  · rintro ⟨hunit, e, he, hvalue⟩
    exact ⟨e, he, hunit, hvalue⟩
  · rintro ⟨e, he, hunit, hvalue⟩
    exact ⟨hunit, e, he, hvalue⟩

/-- The entry that is found is that of the first record. -/
theorem firstCarries_iff {d : Dataset} {unit value : String} {i : InternalRecord} :
    d.FirstCarries unit value i ↔
      ∃ e, d.external.entries.find? (fun (i, e) => i.unit = unit && e.value = value) =
        some (i, e) := by
  have hasymm : ∀ a b : InternalRecord × ExternalRecord,
      compare a.1 b.1 = .lt → ¬compare b.1 a.1 = .lt := fun a b hab hba => by
    rw [Std.OrientedCmp.gt_of_lt hab] at hba
    cases hba
  simp only [Table.find?_eq_some_iff_first hasymm d.external.ascending]
  constructor
  · rintro ⟨hcarries, hfirst⟩
    obtain ⟨e, he, htest⟩ := carries_iff.mp hcarries
    refine ⟨e, he, htest, fun ⟨j, e'⟩ he' htest' => ?_⟩
    rcases hfirst j (carries_iff.mpr ⟨e', he', htest'⟩) with rfl | hlt
    · have hsame : some e' = some e :=
        (Table.get?_eq_some_iff.mpr he').symm.trans (Table.get?_eq_some_iff.mpr he)
      exact .inl (congrArg (j, ·) (Option.some.inj hsame))
    · exact .inr hlt
  · rintro ⟨e, he, htest, hfirst⟩
    refine ⟨carries_iff.mpr ⟨e, he, htest⟩, fun j hj => ?_⟩
    obtain ⟨e', he', htest'⟩ := carries_iff.mp hj
    exact (hfirst (j, e') he' htest').imp_left (congrArg Prod.fst)

/-- If some record carries a value, there is a first one. -/
theorem Carries.exists_first {d : Dataset} {unit value : String} {i : InternalRecord}
    (h : d.Carries unit value i) : ∃ j, d.FirstCarries unit value j := by
  obtain ⟨e, he, htest⟩ := carries_iff.mp h
  have hfound : (d.external.entries.find?
      fun (i, e) => i.unit = unit && e.value = value).isSome = true :=
    List.find?_isSome.mpr ⟨(i, e), he, htest⟩
  obtain ⟨⟨j, e'⟩, hfind⟩ := Option.isSome_iff_exists.mp hfound
  exact ⟨j, firstCarries_iff.mpr ⟨e', hfind⟩⟩

/-- The profile that a lookup answers is the one at which the first record points. -/
theorem profileOfExternal?_eq_some_iff {d : Dataset} {unit value : String} {p : Profile} :
    d.profileOfExternal? unit value = some p ↔
      ∃ i, d.FirstCarries unit value i ∧ d.PointsAt i p := by
  simp only [profileOfExternal?, Option.bind_eq_bind, Option.bind_eq_some_iff, firstCarries_iff]
  constructor
  · rintro ⟨⟨i, e⟩, hfind, hp⟩
    obtain ⟨rfl, -⟩ := (firstCarries_iff.mpr ⟨e, hfind⟩).carries
    exact ⟨i, ⟨e, hfind⟩, hp⟩
  · rintro ⟨i, ⟨e, hfind⟩, hp⟩
    obtain ⟨rfl, -⟩ := (firstCarries_iff.mpr ⟨e, hfind⟩).carries
    exact ⟨(i, e), hfind, hp⟩

/-- Unless the first record that carries a value dangles, a lookup finds a profile exactly
if a record that carries it points at one. -/
theorem exists_profileOfExternal?_iff {d : Dataset} {unit value : String}
    (h : ∀ i, d.FirstCarries unit value i → ¬d.Dangles i) :
    (∃ p, d.profileOfExternal? unit value = some p) ↔
      ∃ i p, d.Carries unit value i ∧ d.PointsAt i p := by
  simp only [profileOfExternal?_eq_some_iff]
  constructor
  · rintro ⟨p, i, hi, hpoints⟩
    exact ⟨i, p, hi.carries, hpoints⟩
  · rintro ⟨i, p, hcarries, -⟩
    obtain ⟨j, hj⟩ := hcarries.exists_first
    obtain ⟨q, hq⟩ := Option.ne_none_iff_exists'.mp (h j hj)
    exact ⟨q, j, hj, hq⟩

/-- If the first record that carries a value dangles, a lookup finds nothing. -/
theorem FirstCarries.profileOfExternal?_eq_none {d : Dataset} {unit value : String}
    {i : InternalRecord} (hi : d.FirstCarries unit value i) (hdangles : d.Dangles i) :
    d.profileOfExternal? unit value = none := by
  obtain ⟨e, hfind⟩ := firstCarries_iff.mp hi
  have hnone : d.profile? unit i.value = none := hi.carries.1 ▸ hdangles
  rw [profileOfExternal?, hfind]
  exact hnone

/-- Every record is that of a profile which is there. -/
def Paired (d : Dataset) : Prop :=
  ∀ i, (d.external.get? i).isSome = true → i = recordOf i.unit i.value ∧ ¬d.Dangles i

/-- If every record is that of a profile, a lookup finds one exactly if a record carries the
value. -/
theorem Paired.exists_profileOfExternal?_iff {d : Dataset} (h : d.Paired)
    {unit value : String} :
    (∃ p, d.profileOfExternal? unit value = some p) ↔ ∃ i, d.Carries unit value i := by
  have hpoints : ∀ i, d.Carries unit value i → ¬d.Dangles i := by
    rintro i ⟨-, e, he, -⟩
    exact (h i (Option.isSome_of_eq_some he)).2
  rw [Dataset.exists_profileOfExternal?_iff fun i hi => hpoints i hi.carries]
  constructor
  · rintro ⟨i, -, hcarries, -⟩
    exact ⟨i, hcarries⟩
  · rintro ⟨i, hcarries⟩
    obtain ⟨p, hp⟩ := Option.ne_none_iff_exists'.mp (hpoints i hcarries)
    exact ⟨i, p, hcarries, hp⟩

end Dataset

/-- A record that is there after a write of profiles was there before, and its profile has
not been deleted. -/
theorem ProfileWrite.isSome_on_recordTouch {w : ProfileWrite} {m : ProfileMap}
    {i : InternalRecord} {x : Option ExternalRecord}
    (h : ((w.recordTouch m i).on x).isSome = true) :
    x.isSome = true ∧ (i = Dataset.recordOf i.unit i.value →
      w.touch i.unit i.value (m i.unit i.value) ≠ .clears) := by
  rw [recordTouch, Touch.on_ite] at h
  split at h
  · cases h
  · rename_i hnot
    exact ⟨h, fun hi hclears => hnot ⟨hi, hclears⟩⟩

namespace Store

/-- A record that is there after an operation was inserted by it with a profile, or it was
there before and its profile has not been deleted, unless the operation inserts records by
themselves. -/
theorem isSome_external_perform {s : Store} (h : s.data.Sound) {op : Operation}
    (hop : ∀ j e, op ≠ .insertExternal j e) {i : InternalRecord}
    (hi : ((perform op s).2.data.external.get? i).isSome = true) :
    (∃ side p e, op = .insertProfile side p (some e) ∧ i = Dataset.recordOf side.name p.id) ∨
      (s.data.external.get? i).isSome = true ∧
        (i = Dataset.recordOf i.unit i.value → profileTouch i.unit i.value s op ≠ .clears) := by
  rw [external_perform h] at hi
  cases s.changes op with
  | profiles w write _ records =>
    rw [records] at hi
    rw [profileTouch, write]
    exact .inr (ProfileWrite.isSome_on_recordTouch hi)
  | profileWithRecord side p e operation =>
    subst operation
    rw [recordTouch, Touch.on_ite] at hi
    by_cases hrecord : i = Dataset.recordOf side.name p.id
    · exact .inl ⟨side, p, e, rfl, hrecord⟩
    · rw [if_neg hrecord] at hi
      exact .inr ⟨hi, fun _ => ProfileWrite.touch_insert_ne_clears (s.profileMap i.unit i.value)⟩
  | insertedRecord j e operation => exact absurd operation (hop j e)
  | updatedRecord j e operation =>
    subst operation
    rw [recordTouch, Touch.on_ite] at hi
    refine .inr ⟨?_, fun _ => Touch.leaves_ne_clears⟩
    split at hi
    · rename_i hthere
      exact hthere.2
    · exact hi
  | deletedRecord j operation =>
    subst operation
    rw [recordTouch, Touch.on_ite] at hi
    refine .inr ⟨?_, fun _ => Touch.leaves_ne_clears⟩
    split at hi
    · cases hi
    · exact hi
  | neither write records =>
    rw [records] at hi
    rw [profileTouch, write]
    exact .inr ⟨hi, fun _ => Touch.leaves_ne_clears⟩

/-- If every record is that of a profile, it is so after an operation that inserts no record
by itself. -/
theorem paired_perform {s : Store} (h : s.data.Sound) (hpaired : s.data.Paired) {op : Operation}
    (hop : ∀ j e, op ≠ .insertExternal j e) : (perform op s).2.data.Paired := by
  intro i hi
  rcases isSome_external_perform h hop hi with ⟨side, p, e, rfl, rfl⟩ | ⟨hbefore, hkept⟩
  · refine ⟨rfl, fun hdangles => ?_⟩
    have hthere := s.data.profile?_insertProfile side.name p side.name p.id
    rw [if_pos ⟨rfl, rfl⟩] at hthere
    exact absurd (hthere.symm.trans hdangles) nofun
  · obtain ⟨hrecord, hthere⟩ := hpaired i hbefore
    refine ⟨hrecord, fun hdangles => ?_⟩
    obtain ⟨p, hp⟩ := Option.ne_none_iff_exists'.mp hthere
    have hprofile : s.profileMap i.unit i.value = some p := hp
    have hafter := profile_perform h i.unit i.value op
    rw [hprofile] at hafter
    exact Touch.on_some_ne_none (hkept hrecord) (hafter.symm.trans hdangles)

/-- In a store in which no record has been inserted but with a profile, every record is that
of a profile. -/
theorem paired_performAll {s : Store} (h : s.data.Sound) (hpaired : s.data.Paired)
    {ops : List Operation} (hops : ∀ op ∈ ops, ∀ j e, op ≠ .insertExternal j e) :
    (s.performAll ops).data.Paired := by
  induction ops generalizing s with
  | nil => exact hpaired
  | cons op ops ih =>
    obtain ⟨hop, hrest⟩ := List.forall_mem_cons.mp hops
    exact ih (sound_perform h op) (paired_perform h hpaired hop) hrest

/-- In a store in which no record has been inserted but with a profile, a lookup finds a
profile exactly if a record carries the value. -/
theorem found_iff_carries (config : ServerConfig) (accounts : Accounts) (evaluators : List String)
    {ops : List Operation} (hops : ∀ op ∈ ops, ∀ j e, op ≠ .insertExternal j e) (side : Side)
    (value : String) :
    (∃ p, perform (.profileOfExternal side value) ((of config accounts evaluators).performAll ops) =
      (.ok (some p), (of config accounts evaluators).performAll ops)) ↔
      ∃ i, ((of config accounts evaluators).performAll ops).data.Carries side.name value i := by
  have hempty : (of config accounts evaluators).data.Paired := fun i hi => by cases hi
  have hpaired := paired_performAll (Reachable.new config accounts evaluators).sound hempty hops
  rw [← hpaired.exists_profileOfExternal?_iff]
  simp only [perform, Prod.mk.injEq, Except.ok.injEq, and_true]

/-- What a lookup of the profile that another system knows by a value answers. -/
structure LooksUp (s : Store) (side : Side) (value : String)
    (r : Except CallError (Option Profile) × Store) : Prop where
  /-- It answers the profile at which the first record points that carries the value. -/
  found_iff : ∀ p, r.1 = .ok (some p) ↔
    ∃ i, s.data.FirstCarries side.name value i ∧ s.data.PointsAt i p
  /-- A profile that is answered is one at which a record points that carries the value. -/
  sound : ∀ p, r.1 = .ok (some p) →
    ∃ i, s.data.Carries side.name value i ∧ s.data.PointsAt i p ∧ p.id = i.value
  /-- Unless the first record that carries the value dangles, a profile is answered exactly
  if a record that carries it points at one. -/
  complete : (∀ i, s.data.FirstCarries side.name value i → ¬s.data.Dangles i) →
    ((∃ p, r.1 = .ok (some p)) ↔
      ∃ i p, s.data.Carries side.name value i ∧ s.data.PointsAt i p)
  /-- If it dangles, no profile is answered, whatever later records point at. -/
  missed : ∀ i, s.data.FirstCarries side.name value i → s.data.Dangles i → r.1 = .ok none
  /-- If no record carries the value, no profile is answered. -/
  unknown : (∀ i, ¬s.data.Carries side.name value i) → r.1 = .ok none
  /-- The store is as it was. -/
  frame : r.2 = s

/-- A lookup by an external value follows the first record that carries the value. -/
theorem Reachable.looksUp_external {s : Store} (h : s.Reachable) (side : Side) (value : String) :
    s.LooksUp side value (perform (.profileOfExternal side value) s) := by
  have hanswer : (perform (.profileOfExternal side value) s).1 =
      .ok (s.data.profileOfExternal? side.name value) := rfl
  refine ⟨fun p => ?_, fun p hp => ?_, fun hfirst => ?_, fun i hi hdangles => ?_,
    fun hno => ?_, rfl⟩
  · rw [hanswer, Except.ok.injEq, Dataset.profileOfExternal?_eq_some_iff]
  · rw [hanswer, Except.ok.injEq] at hp
    obtain ⟨i, hi, hpoints⟩ := Dataset.profileOfExternal?_eq_some_iff.mp hp
    exact ⟨i, hi.carries, hpoints, h.sound.id_eq hpoints⟩
  · simp only [hanswer, Except.ok.injEq]
    exact Dataset.exists_profileOfExternal?_iff hfirst
  · rw [hanswer, hi.profileOfExternal?_eq_none hdangles]
  · have hnone : s.data.profileOfExternal? side.name value = none := by
      refine Option.eq_none_iff_forall_ne_some.mpr fun p hp => ?_
      obtain ⟨i, hi, -⟩ := Dataset.profileOfExternal?_eq_some_iff.mp hp
      exact hno i hi.carries
    rw [hanswer, hnone]

/-- A customer is forgotten, but not the record by which the customer was known, and comes
back as another user. -/
def returnedCustomer : Store :=
  (Store.of .default .empty []).performAll
    [.insertProfile .user ⟨1, .empty⟩ none,
      .insertExternal ⟨"user", "customer", 1⟩ (customerRecord "C-5"),
      .deleteProfile .user 1,
      .insertProfile .user ⟨2, .empty⟩ (some (customerRecord "C-5")),
      .insertProfile .user ⟨3, .empty⟩ (some (customerRecord "C-6"))]

/-- A customer who has not been forgotten is found by a record. -/
theorem Reachable.looksUp_external_customer :
    returnedCustomer.Reachable ∧
      returnedCustomer.LooksUp .user "C-6"
        (perform (.profileOfExternal .user "C-6") returnedCustomer) ∧
      returnedCustomer.data.FirstCarries "user" "C-6" ⟨"user", "userid", 3⟩ ∧
      (perform (.profileOfExternal .user "C-6") returnedCustomer).1 = .ok (some ⟨3, .empty⟩) := by
  have h : returnedCustomer.Reachable := Reachable.performAll (.new _ _ _) _
  have hlookup := h.looksUp_external .user "C-6"
  have hfirst : returnedCustomer.data.FirstCarries "user" "C-6" ⟨"user", "userid", 3⟩ :=
    Dataset.firstCarries_iff.mpr ⟨customerRecord "C-6", by decide +kernel⟩
  have hpoints : returnedCustomer.data.PointsAt ⟨"user", "userid", 3⟩ ⟨3, .empty⟩ := by
    rw [Dataset.PointsAt]
    decide +kernel
  exact ⟨h, hlookup, hfirst, (hlookup.found_iff _).mpr ⟨_, hfirst, hpoints⟩⟩

/-- A customer who has come back is not found, although a record that carries the value
points at the profile: the first one that carries it dangles. -/
theorem returnedCustomer_missed :
    returnedCustomer.Reachable ∧
      returnedCustomer.data.Carries "user" "C-5" ⟨"user", "userid", 2⟩ ∧
      returnedCustomer.data.PointsAt ⟨"user", "userid", 2⟩ ⟨2, .empty⟩ ∧
      (perform (.profileOfExternal .user "C-5") returnedCustomer).1 = .ok none := by
  have hcarried : returnedCustomer.data.external.get? ⟨"user", "userid", 2⟩ =
      some (customerRecord "C-5") := by decide +kernel
  have hpoints : returnedCustomer.data.PointsAt ⟨"user", "userid", 2⟩ ⟨2, .empty⟩ := by
    rw [Dataset.PointsAt]
    decide +kernel
  have hmissed : returnedCustomer.data.profileOfExternal? "user" "C-5" = none := by
    decide +kernel
  exact ⟨Reachable.performAll (.new _ _ _) _, ⟨rfl, _, hcarried, rfl⟩, hpoints,
    congrArg Except.ok hmissed⟩

end Store

end RatingServer
