import RatingServer.Proofs.Store.Profiles
import RatingServer.Proofs.Table.Lookup

/-!
# The attributes of a unit

The attributes of a unit are gathered from its profiles: of each name, only the first
attribute is taken. Since the key attribute comes first in each profile it comes first in
the list, whatever values are kept under its name; any other name is listed with the type
that its value has in the first profile where it is known.
-/

namespace RatingServer

/-- Exactly a missing value has no type. -/
theorem AttributeValue.type?_eq_none_iff {v : AttributeValue} : v.type? = none ↔ v = .missing := by
  cases v <;> simp [type?]

namespace Profile

/-- The type of the known value under a name. -/
def typeAt? (p : Profile) (name : String) : Option AttributeType :=
  (p.values.get? name).bind (·.type?)

/-- A name has a type exactly if a value is known under it. -/
theorem typeAt?_eq_some_iff {p : Profile} {name : String} {type : AttributeType} :
    p.typeAt? name = some type ↔ ∃ v, p.values.get? name = some v ∧ v.type? = some type :=
  Option.bind_eq_some_iff

/-- A profile has its key attribute, and an attribute for each known value. -/
theorem mem_attributeList_iff {p : Profile} {keyName : String} {a : Attribute} :
    a ∈ (p.attributeList keyName).attributes ↔
      a = .key keyName ∨ (a.isKey = false ∧ p.typeAt? a.name = some a.type) := by
  rw [attributeList, List.mem_cons, List.mem_filterMap]
  refine or_congr_right ⟨?_, ?_⟩
  · rintro ⟨⟨name, v⟩, hentry, ha⟩
    obtain ⟨type, htype, rfl⟩ := Option.map_eq_some_iff.mp ha
    exact ⟨rfl, typeAt?_eq_some_iff.mpr ⟨v, Table.get?_eq_some_iff.mpr hentry, htype⟩⟩
  · rintro ⟨hkey, hknown⟩
    obtain ⟨v, hv, htype⟩ := typeAt?_eq_some_iff.mp hknown
    refine ⟨(a.name, v), Table.get?_eq_some_iff.mp hv, ?_⟩
    simp only [htype, Option.map_some, ← hkey]

/-- The attribute of a profile under a name that is not that of the key. -/
theorem find?_attributeList (p : Profile) {keyName name : String} (hname : name ≠ keyName) :
    (p.attributeList keyName).attributes.find? (·.name = name) =
      (p.typeAt? name).map ({ name, type := · }) := by
  have hmem : ∀ a ∈ (p.attributeList keyName).attributes, a.name = name →
      a.isKey = false ∧ p.typeAt? name = some a.type := by
    intro a ha hnamed
    rcases mem_attributeList_iff.mp ha with rfl | hknown
    · exact absurd hnamed.symm hname
    · exact hnamed ▸ hknown
  cases hfind : (p.attributeList keyName).attributes.find? (·.name = name) with
  | none =>
    cases hknown : p.typeAt? name with
    | none => rfl
    | some type =>
      have hlisted : { name, type } ∈ (p.attributeList keyName).attributes :=
        mem_attributeList_iff.mpr (.inr ⟨rfl, hknown⟩)
      have hfails := List.find?_eq_none.mp hfind _ hlisted
      simp at hfails
  | some a =>
    have hnamed : a.name = name := by simpa using List.find?_some hfind
    obtain ⟨hkey, hknown⟩ := hmem a (List.mem_of_find?_eq_some hfind) hnamed
    rw [hknown, Option.map_some, ← hkey, ← hnamed]

end Profile

namespace Dataset

/-- More attributes come after those that are known. -/
theorem prefix_addAttributes (known more : List Attribute) :
    known <+: addAttributes known more := by
  induction more generalizing known with
  | nil => exact List.prefix_refl _
  | cons a more ih =>
    rw [addAttributes, List.foldl_cons]
    refine List.IsPrefix.trans ?_ (ih _)
    split
    · exact List.prefix_refl _
    · exact List.prefix_append _ _

/-- No two attributes have one name if none of those that are known do. -/
theorem nodup_addAttributes {known : List Attribute} (more : List Attribute)
    (h : (known.map (·.name)).Nodup) : ((addAttributes known more).map (·.name)).Nodup := by
  induction more generalizing known with
  | nil => exact h
  | cons a more ih =>
    rw [addAttributes, List.foldl_cons]
    refine ih ?_
    split
    · exact h
    · rename_i hnew
      rw [List.map_append, List.map_singleton]
      refine List.nodup_append.mpr ⟨h, List.pairwise_singleton _ _, fun x hx y hy hxy => ?_⟩
      obtain ⟨b, hb, rfl⟩ := List.mem_map.mp hx
      have hnamed : b.name = a.name := hxy.trans (List.mem_singleton.mp hy)
      exact hnew (List.any_eq_true.mpr ⟨b, hb, decide_eq_true hnamed⟩)

/-- The first attribute of a name is kept. -/
theorem find?_addAttributes (known more : List Attribute) (name : String) :
    (addAttributes known more).find? (·.name = name) =
      (known ++ more).find? (·.name = name) := by
  induction more generalizing known with
  | nil => rw [List.append_nil]; rfl
  | cons a more ih =>
    rw [addAttributes, List.foldl_cons]
    refine (ih _).trans ?_
    split
    · rename_i hknown
      obtain ⟨b, hb, hname⟩ := List.any_eq_true.mp hknown
      have hname : b.name = a.name := of_decide_eq_true hname
      rw [List.find?_append, List.find?_append]
      by_cases ha : a.name = name
      · have hfound : (known.find? (·.name = name)).isSome = true :=
          List.find?_isSome.mpr ⟨b, hb, decide_eq_true (hname.trans ha)⟩
        rw [Option.or_of_isSome hfound, Option.or_of_isSome hfound]
      · rw [List.find?_cons_of_neg (by simpa using ha)]
    · rw [List.append_assoc, List.singleton_append]

/-- The attributes of the profiles of a unit, without repetitions. -/
def gathered (d : Dataset) (unit : String) : List Attribute :=
  addAttributes [] ((d.rows unit).flatMap fun p => (p.attributeList (keyName unit)).attributes)

/-- The attributes of a unit are those of its profiles. -/
theorem attributes?_eq (d : Dataset) (unit : String) :
    d.attributes? unit = if (d.gathered unit).isEmpty then none else some ⟨d.gathered unit⟩ := by
  have hgathered : d.gathered unit = (d.rows unit).foldl
      (fun known p => addAttributes known (p.attributeList (keyName unit)).attributes) [] :=
    List.foldl_flatMap
  rw [attributes?, hgathered]

/-- No two attributes of a unit have one name. -/
theorem nodup_gathered (d : Dataset) (unit : String) :
    ((d.gathered unit).map (·.name)).Nodup := nodup_addAttributes _ List.nodup_nil

/-- The attributes of a unit begin with its key attribute, unless there are none. -/
theorem gathered_of_rows {d : Dataset} {unit : String} {p : Profile} {rest : List Profile}
    (h : d.rows unit = p :: rest) :
    ∃ others, d.gathered unit = .key (keyName unit) :: others := by
  have hprefix : [.key (keyName unit)] <+: d.gathered unit := by
    rw [gathered, h]
    exact prefix_addAttributes [.key (keyName unit)] _
  obtain ⟨others, hothers⟩ := hprefix
  exact ⟨others, hothers.symm⟩

/-- The attribute of a unit under a name that is not that of its key has the type of the
value in the first profile where one is known. -/
theorem find?_gathered (d : Dataset) (unit : String) {name : String} (hname : name ≠ keyName unit) :
    (d.gathered unit).find? (·.name = name) =
      ((d.rows unit).findSome? (·.typeAt? name)).map ({ name, type := · }) := by
  rw [gathered, find?_addAttributes, List.nil_append, List.find?_flatMap, List.map_findSome?]
  refine congrArg (List.findSome? · _) (funext fun p => ?_)
  exact p.find?_attributeList hname

/-- An attribute of a unit under another name than that of its key is no key, and has the
type of the value in the first profile where one is known. -/
theorem mem_gathered_iff {d : Dataset} {unit : String} {a : Attribute}
    (hname : a.name ≠ keyName unit) :
    a ∈ d.gathered unit ↔
      a.isKey = false ∧ (d.rows unit).findSome? (·.typeAt? a.name) = some a.type := by
  have hfound : a ∈ d.gathered unit ↔ (d.gathered unit).find? (·.name = a.name) = some a :=
    ((find?_key_eq_some_iff (d.nodup_gathered unit)).trans (and_iff_left rfl)).symm
  rw [hfound, d.find?_gathered unit hname, Option.map_eq_some_iff]
  constructor
  · rintro ⟨type, htype, ha⟩
    exact ⟨(congrArg Attribute.isKey ha).symm, (congrArg Attribute.type ha) ▸ htype⟩
  · rintro ⟨hkey, htype⟩
    exact ⟨a.type, htype, by rw [← hkey]⟩

/-- Of the profiles of a unit, the first that has something is the one with the smallest
identifier. -/
theorem Sound.findSome?_rows_eq_some_iff {d : Dataset} (h : d.Sound) (unit : String)
    {f : Profile → Option α} {x : α} :
    (d.rows unit).findSome? f = some x ↔
      ∃ p, d.profile? unit p.id = some p ∧ f p = some x ∧
        ∀ q, d.profile? unit q.id = some q → (f q).isSome = true → p.id ≤ q.id := by
  have hrow : ∀ {p}, p ∈ d.rows unit ↔ d.profile? unit p.id = some p := h.mem_rows_iff
  have hordered := h.pairwise_rows unit
  rw [List.findSome?_eq_some_iff]
  constructor
  · rintro ⟨before, p, after, hrows, hp, hbefore⟩
    rw [hrows] at hordered hrow
    obtain ⟨-, hafter, -⟩ := List.pairwise_append.mp hordered
    refine ⟨p, hrow.mp (List.mem_append_right _ List.mem_cons_self), hp, fun q hq hsome => ?_⟩
    rcases List.mem_append.mp (hrow.mpr hq) with hq | hq
    · rw [hbefore q hq] at hsome
      cases hsome
    · rcases List.mem_cons.mp hq with rfl | hq
      · exact Int32.le_refl _
      · exact Int32.le_of_lt (List.rel_of_pairwise_cons hafter hq)
  · rintro ⟨p, hthere, hp, hleast⟩
    obtain ⟨before, after, hrows⟩ := List.append_of_mem (hrow.mpr hthere)
    rw [hrows] at hordered hrow
    obtain ⟨-, -, hacross⟩ := List.pairwise_append.mp hordered
    refine ⟨before, p, after, hrows, hp, fun q hq => ?_⟩
    cases hfq : f q with
    | none => rfl
    | some y =>
      have hle := hleast q (hrow.mp (List.mem_append_left _ hq)) (Option.isSome_of_eq_some hfq)
      exact absurd (hacross q hq p List.mem_cons_self) (Int32.not_lt.mpr hle)

end Dataset

namespace Store

/-- A value that a profile of a unit has under a name, and that is not missing. -/
structure KnownValue (s : Store) (unit name : String) (p : Profile) (v : AttributeValue) :
    Prop where
  /-- The profile is one of the unit. -/
  profile : s.profileMap unit p.id = some p
  /-- It has the value under the name. -/
  value : p.values.get? name = some v
  /-- The value is not missing. -/
  known : v ≠ .missing

/-- A name has a type in a profile of a unit exactly if the profile has a known value of the
type under it. -/
theorem typeAt?_iff_knownValue {s : Store} {unit name : String} {p : Profile}
    (hp : s.profileMap unit p.id = some p) {type : AttributeType} :
    p.typeAt? name = some type ↔ ∃ v, s.KnownValue unit name p v ∧ v.type? = some type := by
  rw [Profile.typeAt?_eq_some_iff]
  refine exists_congr fun v => ⟨?_, fun h => ⟨h.1.value, h.2⟩⟩
  rintro ⟨hv, htype⟩
  refine ⟨⟨hp, hv, fun hmissing => ?_⟩, htype⟩
  rw [AttributeValue.type?_eq_none_iff.mpr hmissing] at htype
  cases htype

/-- A name has some type in a profile with a known value under it. -/
theorem KnownValue.isSome_typeAt? {s : Store} {unit name : String} {p : Profile}
    {v : AttributeValue} (h : s.KnownValue unit name p v) : (p.typeAt? name).isSome = true := by
  cases htype : v.type? with
  | none => exact absurd (AttributeValue.type?_eq_none_iff.mp htype) h.known
  | some type =>
    exact Option.isSome_of_eq_some ((typeAt?_iff_knownValue h.profile).mpr ⟨v, h, htype⟩)

/-- The attribute list of a unit that has profiles. -/
structure Describes (s : Store) (unit : String) (l : AttributeList) : Prop where
  /-- The unit has a profile. -/
  inhabited : ∃ id p, s.profileMap unit id = some p
  /-- No two attributes have one name. -/
  nodup : (l.attributes.map (·.name)).Nodup
  /-- The first attribute is the key of the unit, an integer. It alone is marked as a key. -/
  key : ∃ others, l.attributes = ⟨Dataset.keyName unit, .integer, true⟩ :: others ∧
    ∀ a ∈ others, a.isKey = false
  /-- Any other name is listed exactly if a value is known under it. -/
  name_iff : ∀ name, name ≠ Dataset.keyName unit →
    (name ∈ l.attributes.map (·.name) ↔ ∃ p v, s.KnownValue unit name p v)
  /-- Its type is that of the value in the profile with the smallest identifier of those where
  one is known. -/
  type_eq : ∀ a ∈ l.attributes, a.name ≠ Dataset.keyName unit →
    ∃ p v, s.KnownValue unit a.name p v ∧ v.type? = some a.type ∧
      ∀ q w, s.KnownValue unit a.name q w → p.id ≤ q.id

/-- An attribute of a unit under another name than that of its key is no key, and has the
type of the known value in the profile with the smallest identifier. -/
theorem Reachable.mem_gathered_iff_knownValue {s : Store} (h : s.Reachable) {unit : String}
    {a : Attribute} (hname : a.name ≠ Dataset.keyName unit) :
    a ∈ s.data.gathered unit ↔ a.isKey = false ∧
      ∃ p v, s.KnownValue unit a.name p v ∧ v.type? = some a.type ∧
        ∀ q w, s.KnownValue unit a.name q w → p.id ≤ q.id := by
  rw [Dataset.mem_gathered_iff hname, h.sound.findSome?_rows_eq_some_iff]
  refine and_congr_right fun _ => exists_congr fun p => ?_
  constructor
  · rintro ⟨hp, htype, hleast⟩
    obtain ⟨v, hknown, htype⟩ := (typeAt?_iff_knownValue hp).mp htype
    exact ⟨v, hknown, htype, fun q w hq => hleast q hq.profile hq.isSome_typeAt?⟩
  · rintro ⟨v, hknown, htype, hleast⟩
    refine ⟨hknown.profile, (typeAt?_iff_knownValue hknown.profile).mpr ⟨v, hknown, htype⟩, ?_⟩
    intro q hq hsome
    obtain ⟨type, htype⟩ := Option.isSome_iff_exists.mp hsome
    obtain ⟨w, hw, -⟩ := (typeAt?_iff_knownValue hq).mp htype
    exact hleast q w hw

/-- A name under which a value is known is that of an attribute of the unit. -/
theorem Reachable.mem_gathered_names_iff {s : Store} (h : s.Reachable) {unit name : String}
    (hname : name ≠ Dataset.keyName unit) :
    name ∈ (s.data.gathered unit).map (·.name) ↔ ∃ p v, s.KnownValue unit name p v := by
  rw [List.mem_map]
  constructor
  · rintro ⟨a, ha, rfl⟩
    obtain ⟨-, p, v, hknown, -⟩ := (h.mem_gathered_iff_knownValue hname).mp ha
    exact ⟨p, v, hknown⟩
  · rintro ⟨p, v, hknown⟩
    have hfound : ((s.data.rows unit).findSome? (·.typeAt? name)).isSome = true :=
      List.findSome?_isSome_iff.mpr
        ⟨p, h.sound.mem_rows_iff.mpr hknown.profile, hknown.isSome_typeAt?⟩
    obtain ⟨type, htype⟩ := Option.isSome_iff_exists.mp hfound
    exact ⟨{ name, type }, (Dataset.mem_gathered_iff hname).mpr ⟨rfl, htype⟩, rfl⟩

/-- What is gathered from the profiles of a unit describes it, if it has any. -/
theorem Reachable.describes_gathered {s : Store} (h : s.Reachable) {unit : String} {p : Profile}
    {rest : List Profile} (hrows : s.data.rows unit = p :: rest) :
    s.Describes unit ⟨s.data.gathered unit⟩ := by
  have hnodup := s.data.nodup_gathered unit
  obtain ⟨others, hothers⟩ := Dataset.gathered_of_rows hrows
  have hothers_key : ∀ a ∈ others, a.isKey = false := by
    intro a ha
    have hgathered : a ∈ s.data.gathered unit := hothers ▸ List.mem_cons_of_mem _ ha
    rw [hothers, List.map_cons, List.nodup_cons] at hnodup
    have hname : a.name ≠ Dataset.keyName unit := fun hname =>
      hnodup.1 (List.mem_map.mpr ⟨a, ha, hname⟩)
    exact (Dataset.mem_gathered_iff hname |>.mp hgathered).1
  have hp : s.profileMap unit p.id = some p :=
    h.sound.mem_rows_iff.mp (hrows ▸ List.mem_cons_self)
  exact {
    inhabited := ⟨p.id, p, hp⟩
    nodup := s.data.nodup_gathered unit
    key := ⟨others, hothers, hothers_key⟩
    name_iff := fun name hname => h.mem_gathered_names_iff hname
    type_eq := fun a ha hname => ((h.mem_gathered_iff_knownValue hname).mp ha).2 }

/-- An answer about the attributes of a unit: nothing if it has no profile, and otherwise
what describes it. -/
def DescribesIfAny (s : Store) (unit : String) : Option AttributeList → Prop
  | none => ∀ id, s.profileMap unit id = none
  | some l => s.Describes unit l

/-- The attributes of a unit describe it. -/
theorem Reachable.describesIfAny {s : Store} (h : s.Reachable) (unit : String) :
    s.DescribesIfAny unit (s.data.attributes? unit) := by
  rw [Dataset.attributes?_eq]
  cases hrows : s.data.rows unit with
  | nil =>
    have hnone : s.data.gathered unit = [] := by rw [Dataset.gathered, hrows]; rfl
    rw [hnone]
    intro id
    cases hp : s.profileMap unit id with
    | none => rfl
    | some p =>
      obtain rfl : p.id = id := h.sound.id_eq hp
      have hrow : p ∈ s.data.rows unit := h.sound.mem_rows_iff.mpr hp
      rw [hrows] at hrow
      cases hrow
  | cons p rest =>
    have hdescribes := h.describes_gathered hrows
    obtain ⟨others, hothers⟩ := Dataset.gathered_of_rows hrows
    have hfull : (s.data.gathered unit).isEmpty = false := by rw [hothers]; rfl
    rw [hfull]
    exact hdescribes

/-- The queries for the attributes of a unit. -/
structure DescribesUnits (s : Store) : Prop where
  /-- The key of a unit is named after users or items, or is a mere identifier. -/
  key_name : Dataset.keyName "user" = "userid" ∧ Dataset.keyName "item" = "itemid" ∧
    ∀ unit, unit ≠ "user" → unit ≠ "item" → Dataset.keyName unit = "id"
  /-- Of any unit. -/
  rows : ∀ unit, ∃ answer, perform (.rowAttributes unit) s = (.ok answer, s) ∧
    s.DescribesIfAny unit answer
  /-- Of users or items. -/
  side : ∀ side : Side, ∃ answer, perform (.attributes side) s = (.ok answer, s) ∧
    s.DescribesIfAny side.name answer
  /-- Of samples. -/
  samples : ∃ answer, perform .sampleAttributes s = (.ok answer, s) ∧
    s.DescribesIfAny sampleUnit answer

/-- The attribute list of a unit is the union of the attributes of its profiles. -/
theorem Reachable.describes_units {s : Store} (h : s.Reachable) : s.DescribesUnits where
  key_name := by
    refine ⟨by decide, by decide, fun unit huser hitem => ?_⟩
    rw [Dataset.keyName, Side.name, Side.name, if_neg huser, if_neg hitem]
  rows unit := ⟨_, rfl, h.describesIfAny unit⟩
  side side := ⟨_, rfl, h.describesIfAny side.name⟩
  samples := ⟨_, rfl, h.describesIfAny sampleUnit⟩

/-- Users whose profiles do not agree: the age of the first is missing, that of the second is
an integer and that of the third a text. The second keeps a value under the name of the key. -/
def censusSample : Store :=
  (Store.of .default .empty []).performAll
    [.insertProfile .user ⟨3, .ofList [("age", .string "old")]⟩ none,
      .insertProfile .user ⟨2, .ofList
        [("userid", .string "two"), ("name", .string "Two"), ("age", .integer 40)]⟩ none,
      .insertProfile .user ⟨1, .ofList [("age", .missing), ("city", .missing)]⟩ none]

/-- Users are described by the first known value under each name. -/
theorem Reachable.describes_units_census :
    censusSample.Reachable ∧ censusSample.DescribesUnits ∧
      perform (.attributes .user) censusSample =
        (.ok (some ⟨[⟨"userid", .integer, true⟩, ⟨"age", .integer, false⟩,
          ⟨"name", .string, false⟩]⟩), censusSample) := by
  have h : censusSample.Reachable := Reachable.performAll (.new _ _ _) _
  have hlist : censusSample.data.attributes? "user" =
      some ⟨[⟨"userid", .integer, true⟩, ⟨"age", .integer, false⟩, ⟨"name", .string, false⟩]⟩ := by
    decide +kernel
  exact ⟨h, h.describes_units, congrArg (Except.ok ·, censusSample) hlist⟩

end Store

end RatingServer
