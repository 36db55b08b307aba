import RatingServer.Proofs.Store.Nominals
import RatingServer.Proofs.Table.Lookup
import Mathlib.Data.List.DropRight

/-!
# The history of nominal lists

A nominal list is begun by the first value that is inserted after the list was last deleted.
From then on it has one value for each index that is inserted, in the order in which the
indexes first came, and under an index stands the value that was inserted last, or put in its
place by an update that was accepted. No list depends on what is done to another.
-/

namespace RatingServer

namespace NominalList

/-- A value that is placed is the one of its index, and those of other indexes are as they
were. -/
theorem find?_upsert (l : NominalList) (n : Nominal) (index : Int32) :
    (l.upsert n).find? index = if n.index = index then some n else l.find? index := by
  rw [upsert, find?, find?]
  dsimp only
  induction l.nominals with
  | nil =>
    rw [placed]
    by_cases hindex : n.index = index
    · simp [hindex]
    · simp [hindex]
  | cons m ms ih =>
    rw [placed]
    by_cases hm : m.index = n.index
    · rw [if_pos hm]
      by_cases hindex : n.index = index
      · simp [hindex]
      · simp [hindex, hm]
    · rw [if_neg hm, List.find?_cons, List.find?_cons, ih]
      by_cases hindex : n.index = index
      · have hne : ¬m.index = index := fun h => hm (h.trans hindex.symm)
        simp [hindex, hne]
      · simp [hindex]

/-- An index has a value exactly if it is one of the indexes. -/
theorem isSome_find?_iff {l : NominalList} {index : Int32} :
    (l.find? index).isSome = true ↔ index ∈ l.nominals.map (·.index) := by
  rw [find?, List.find?_isSome, List.mem_map]
  simp only [decide_eq_true_eq]

/-- If the indexes of a list are those of some values, each at its first place, they stay so
when one more value comes and is placed. -/
theorem map_index_placed {l ns : List Nominal} (n : Nominal)
    (h : l.map (·.index) = (ns.map (·.index)).eraseDups) :
    (placed n l).map (·.index) = ((ns ++ [n]).map (·.index)).eraseDups := by
  have hmem : n.index ∈ l.map (·.index) ↔ n.index ∈ ns.map (·.index) := by
    rw [h, List.mem_eraseDups]
  rw [List.map_append, List.eraseDups_append, ← h, List.map_singleton]
  by_cases hthere : n.index ∈ l.map (·.index)
  · have hnone : [n.index].removeAll (ns.map (·.index)) = [] := by
      simpa [List.removeAll] using hmem.mp hthere
    rw [map_index_placed_of_mem hthere, hnone, List.eraseDups_nil, List.append_nil]
  · have hnew : [n.index].removeAll (ns.map (·.index)) = [n.index] := by
      simpa [List.removeAll] using fun hns => hthere (hmem.mpr hns)
    rw [placed_of_not_mem hthere, hnew, List.map_append]
    rfl

end NominalList

namespace Dataset

/-- An update of a value answers whether its index has one. -/
theorem updateNominal_found (d : Dataset) (key : NominalKey) (n : Nominal) :
    (d.updateNominal key n).1 = ((d.nominals.get? key).bind (·.find? n.index)).isSome := by
  rw [updateNominal]
  cases d.nominals.get? key with
  | none => rfl
  | some l =>
    rw [Option.bind_some]
    dsimp only
    split
    · rename_i hthere
      exact hthere.symm
    · rename_i hthere
      exact (Bool.eq_false_iff.mpr hthere).symm

/-- An update of a value changes its list, if its index has a value there, and no other. -/
theorem get?_updateNominal (d : Dataset) (key key' : NominalKey) (n : Nominal) :
    (d.updateNominal key n).2.nominals.get? key' =
      if key' = key then
        (d.nominals.get? key).map fun l => if (l.find? n.index).isSome then l.upsert n else l
      else d.nominals.get? key' := by
  rw [updateNominal]
  by_cases hkey : key' = key
  · subst hkey
    rw [if_pos rfl]
    cases hlist : d.nominals.get? key' with
    | none => exact hlist
    | some l =>
      rw [Option.map_some]
      dsimp only
      split
      · rw [Table.get?_insert, if_pos rfl]
      · exact hlist
  · rw [if_neg hkey]
    split
    · rfl
    · split
      · rw [Table.get?_insert, if_neg hkey]
      · rfl

end Dataset

namespace Operation

/-- The value that an operation inserts into the list of a unit and attribute. -/
def insertedNominal? (key : NominalKey) : Operation → Option Nominal
  | insertNominal unit attr n => if ⟨unit, attr⟩ = key then some n else none
  | _ => none

/-- The list of a unit and attribute after an operation, given the one before. -/
def relist (key : NominalKey) (op : Operation) (there : Option NominalList) :
    Option NominalList :=
  match op with
  | insertNominal unit attr n =>
    if ⟨unit, attr⟩ = key then some ((there.getD { unit, attr }).upsert n) else there
  | updateNominal unit attr n =>
    if ⟨unit, attr⟩ = key then
      there.map fun l => if (l.find? n.index).isSome then l.upsert n else l
    else there
  | deleteNominals unit attr => if ⟨unit, attr⟩ = key then none else there
  | _ => there

/-- An operation on another list leaves the list of a unit and attribute. -/
theorem relist_of_ne {key : NominalKey} {op : Operation} (h : op.nominalKey? ≠ some key)
    (there : Option NominalList) : op.relist key there = there := by
  cases op with
  | insertNominal unit attr n => exact if_neg fun hkey => h (congrArg some hkey)
  | updateNominal unit attr n => exact if_neg fun hkey => h (congrArg some hkey)
  | deleteNominals unit attr => exact if_neg fun hkey => h (congrArg some hkey)
  | _ => rfl

/-- An operation on another list inserts nothing into the list of a unit and attribute. -/
theorem insertedNominal?_of_ne {key : NominalKey} {op : Operation}
    (h : op.nominalKey? ≠ some key) : op.insertedNominal? key = none := by
  cases op with
  | insertNominal unit attr n => exact if_neg fun hkey => h (congrArg some hkey)
  | _ => rfl

end Operation

/-- The values that are inserted into the list of a unit and attribute after the last
deletion of the list. -/
def insertedSince (key : NominalKey) (ops : List Operation) : List Nominal :=
  (ops.rtakeWhile (· ≠ .deleteNominals key.unit key.attr)).filterMap
    (Operation.insertedNominal? key)

/-- A deletion of the list begins anew. -/
theorem insertedSince_deletion (key : NominalKey) (ops : List Operation) :
    insertedSince key (ops ++ [.deleteNominals key.unit key.attr]) = [] := by
  rw [insertedSince, List.rtakeWhile_concat_neg _ _ _ (by simp), List.filterMap_nil]

/-- Every other operation adds what it inserts. -/
theorem insertedSince_concat {key : NominalKey} {op : Operation}
    (h : op ≠ .deleteNominals key.unit key.attr) (ops : List Operation) :
    insertedSince key (ops ++ [op]) =
      insertedSince key ops ++ (op.insertedNominal? key).toList := by
  rw [insertedSince, List.rtakeWhile_concat_pos _ _ _ (by simpa using h), List.filterMap_append,
    insertedSince]
  cases hop : op.insertedNominal? key with
  | none => rw [List.filterMap_cons_none hop]; rfl
  | some n => rw [List.filterMap_cons_some hop]; rfl

namespace Store

/-- The list of a unit and attribute after an operation. -/
theorem get?_nominals_perform (s : Store) (op : Operation) (key : NominalKey) :
    (perform op s).2.data.nominals.get? key = op.relist key (s.data.nominals.get? key) := by
  by_cases hop : op.nominalKey? = none
  · rw [s.nominals_perform hop, Operation.relist_of_ne (by rw [hop]; exact nofun)]
  · cases op with
    | insertNominal unit attr n =>
      refine (Table.get?_insert _ _ _ _).trans ?_
      rw [Operation.relist]
      by_cases hkey : key = ⟨unit, attr⟩
      · rw [if_pos hkey, if_pos hkey.symm, hkey]
      · rw [if_neg hkey, if_neg fun h => hkey h.symm]
    | updateNominal unit attr n =>
      refine (s.data.get?_updateNominal ⟨unit, attr⟩ key n).trans ?_
      rw [Operation.relist]
      by_cases hkey : key = ⟨unit, attr⟩
      · rw [if_pos hkey, if_pos hkey.symm, hkey]
      · rw [if_neg hkey, if_neg fun h => hkey h.symm]
    | deleteNominals unit attr =>
      refine (Table.get?_erase _ _ _).trans ?_
      rw [Operation.relist]
      by_cases hkey : key = ⟨unit, attr⟩
      · rw [if_pos hkey, if_pos hkey.symm]
      · rw [if_neg hkey, if_neg fun h => hkey h.symm]
    | _ => exact absurd rfl hop

/-- The value of an index in the list of a unit and attribute. -/
def nominalAt? (s : Store) (key : NominalKey) (index : Int32) : Option Nominal :=
  (s.data.nominals.get? key).bind (·.find? index)

/-- What an operation does to the value of an index in the list of a unit and attribute: an
insertion sets it, as does an update that is accepted, and a deletion of the list clears it. -/
def nominalTouch (key : NominalKey) (index : Int32) (s : Store) : Operation → Touch Nominal
  | .insertNominal unit attr n =>
    if ⟨unit, attr⟩ = key ∧ n.index = index then .sets n else .leaves
  | .updateNominal unit attr n =>
    if (⟨unit, attr⟩ = key ∧ n.index = index) ∧
        (perform (.updateNominal unit attr n) s).1 = .ok true then .sets n
    else .leaves
  | .deleteNominals unit attr => if ⟨unit, attr⟩ = key then .clears else .leaves
  | _ => .leaves

/-- An update of a value is accepted exactly if its index has one. -/
theorem updateNominal_accepted_iff (s : Store) (unit attr : String) (n : Nominal) :
    (perform (.updateNominal unit attr n) s).1 = .ok true ↔
      (s.nominalAt? ⟨unit, attr⟩ n.index).isSome = true := by
  rw [nominalAt?, ← Dataset.updateNominal_found]
  exact ⟨Except.ok.inj, congrArg Except.ok⟩

/-- An operation on another list leaves the values of a unit and attribute. -/
theorem nominalTouch_of_ne {key : NominalKey} {op : Operation} (h : op.nominalKey? ≠ some key)
    (index : Int32) (s : Store) : nominalTouch key index s op = .leaves := by
  cases op with
  | insertNominal unit attr n => exact if_neg fun hand => h (congrArg some hand.1)
  | updateNominal unit attr n => exact if_neg fun hand => h (congrArg some hand.1.1)
  | deleteNominals unit attr => exact if_neg fun hkey => h (congrArg some hkey)
  | _ => rfl

/-- The value of an index after an operation. -/
theorem nominalAt?_perform (s : Store) (op : Operation) (key : NominalKey) (index : Int32) :
    (perform op s).2.nominalAt? key index =
      (nominalTouch key index s op).on (s.nominalAt? key index) := by
  rw [nominalAt?, get?_nominals_perform]
  by_cases hop : op.nominalKey? = some key
  · cases op with
    | insertNominal unit attr n =>
      obtain rfl : ⟨unit, attr⟩ = key := Option.some.inj hop
      rw [Operation.relist, if_pos rfl, Option.bind_some, NominalList.find?_upsert, nominalTouch]
      by_cases hindex : n.index = index
      · rw [if_pos hindex, if_pos ⟨rfl, hindex⟩, Touch.on]
      · rw [if_neg hindex, if_neg fun hand => hindex hand.2, Touch.on, nominalAt?]
        cases s.data.nominals.get? ⟨unit, attr⟩ <;> rfl
    | updateNominal unit attr n =>
      obtain rfl : ⟨unit, attr⟩ = key := Option.some.inj hop
      have haccepted := s.updateNominal_accepted_iff unit attr n
      rw [Operation.relist, if_pos rfl, nominalTouch]
      split
      · rename_i hand
        obtain ⟨⟨-, rfl⟩, haccept⟩ := hand
        obtain ⟨m, hm⟩ := Option.isSome_iff_exists.mp (haccepted.mp haccept)
        obtain ⟨l, hlist, hfind⟩ := Option.bind_eq_some_iff.mp hm
        rw [hlist, Option.map_some, Option.bind_some, if_pos (Option.isSome_of_eq_some hfind),
          NominalList.find?_upsert, if_pos rfl, Touch.on]
      · rename_i hand
        rw [Touch.on, nominalAt?]
        cases hlist : s.data.nominals.get? ⟨unit, attr⟩ with
        | none => rfl
        | some l =>
          rw [Option.map_some, Option.bind_some, Option.bind_some]
          split
          · rename_i hthere
            rw [NominalList.find?_upsert, if_neg]
            rintro rfl
            refine hand ⟨⟨rfl, rfl⟩, haccepted.mpr ?_⟩
            rwa [nominalAt?, hlist, Option.bind_some]
          · rfl
    | deleteNominals unit attr =>
      rw [Operation.relist, nominalTouch, if_pos (Option.some.inj hop),
        if_pos (Option.some.inj hop), Touch.on, Option.bind_none]
    | _ => cases hop
  · rw [Operation.relist_of_ne hop, nominalTouch_of_ne hop, Touch.on, nominalAt?]

/-- Each of some operations leaves the value of an index in the list of a unit and
attribute. -/
def NominalUntouched (s : Store) (key : NominalKey) (index : Int32) (ops : List Operation) :
    Prop :=
  Touch.Untouched (fun s op => (perform op s).2) (nominalTouch key index) s ops

/-- A value is the last that some operations set under its index: it was inserted, or put in
place of another by an update that was accepted, and no later one has touched it. -/
def SetLast (s : Store) (key : NominalKey) (ops : List Operation) (n : Nominal) : Prop :=
  ∃ before op after, ops = before ++ op :: after ∧
    nominalTouch key n.index (s.performAll before) op = .sets n ∧
    (perform op (s.performAll before)).2.NominalUntouched key n.index after

/-- From a store without nominal lists on, the value of an index is the one that was set
last. -/
theorem nominalAt?_performAll {s : Store} (hempty : s.data.nominals = .empty)
    (ops : List Operation) (key : NominalKey) (n : Nominal) :
    (s.performAll ops).nominalAt? key n.index = some n ↔ s.SetLast key ops n := by
  have hnone : s.nominalAt? key n.index ≠ some n := by
    rw [nominalAt?, hempty]
    exact nofun
  refine (Touch.run_eq_some_iff (fun t : Store => t.nominalAt? key n.index) (I := fun _ => True)
    (fun _ _ _ => trivial) (fun t op _ => t.nominalAt?_perform op key n.index) trivial ops
    n).trans ?_
  exact or_iff_right fun hand => hnone hand.1

/-- Operations keep all nominal lists under their units and attributes. -/
theorem listed_performAll {s : Store} (h : s.data.Listed) (ops : List Operation) :
    (s.performAll ops).data.Listed := by
  induction ops generalizing s with
  | nil => exact h
  | cons op ops ih => exact ih (listed_perform h op)

/-- A list holds the indexes of some values, each at its first place, and there is no list
if there are no values. -/
structure ListsIndexes (there : Option NominalList) (ns : List Nominal) : Prop where
  /-- There is no list exactly if there are no values. -/
  none_iff : there = none ↔ ns = []
  /-- The indexes of the list are those of the values. -/
  map_index : ∀ l, there = some l →
    l.nominals.map (·.index) = (ns.map (·.index)).eraseDups

/-- Where there is no list there are no values. -/
theorem ListsIndexes.absent : ListsIndexes none [] := ⟨iff_of_true rfl rfl, nofun⟩

/-- A list holds the indexes of what is inserted, until it is deleted. -/
theorem ListsIndexes.relist {key : NominalKey} {there : Option NominalList} {ns : List Nominal}
    (h : ListsIndexes there ns) {op : Operation} (hop : op ≠ .deleteNominals key.unit key.attr) :
    ListsIndexes (op.relist key there) (ns ++ (op.insertedNominal? key).toList) := by
  by_cases hkey : op.nominalKey? = some key
  · cases op with
    | insertNominal unit attr n =>
      obtain rfl : ⟨unit, attr⟩ = key := Option.some.inj hkey
      rw [Operation.relist, if_pos rfl, Operation.insertedNominal?, if_pos rfl]
      refine ⟨iff_of_false nofun (by simp), fun l hl => ?_⟩
      obtain rfl := Option.some.inj hl
      refine NominalList.map_index_placed n ?_
      cases there with
      | none => rw [h.none_iff.mp rfl]; rfl
      | some l => exact h.map_index l rfl
    | updateNominal unit attr n =>
      obtain rfl : ⟨unit, attr⟩ = key := Option.some.inj hkey
      have hnone : (Operation.updateNominal unit attr n).insertedNominal? ⟨unit, attr⟩ = none := rfl
      rw [Operation.relist, if_pos rfl, hnone, Option.toList_none, List.append_nil]
      refine ⟨Option.map_eq_none_iff.trans h.none_iff, fun l hl => ?_⟩
      obtain ⟨l, rfl, rfl⟩ := Option.map_eq_some_iff.mp hl
      rw [← h.map_index l rfl]
      split
      · rename_i hthere
        exact NominalList.map_index_placed_of_mem (NominalList.isSome_find?_iff.mp hthere)
      · rfl
    | deleteNominals unit attr =>
      obtain rfl : ⟨unit, attr⟩ = key := Option.some.inj hkey
      exact absurd rfl hop
    | _ => cases hkey
  · rw [Operation.relist_of_ne hkey, Operation.insertedNominal?_of_ne hkey, Option.toList_none,
      List.append_nil]
    exact h

/-- From a store without nominal lists on, each list holds the indexes that were inserted
since its last deletion. -/
theorem listsIndexes_performAll {s : Store} (hempty : s.data.nominals = .empty)
    (ops : List Operation) (key : NominalKey) :
    ListsIndexes ((s.performAll ops).data.nominals.get? key) (insertedSince key ops) := by
  -- The induction is on the last operation, as what counts is what came after a deletion.
  induction ops using List.reverseRecOn with
  | nil =>
    have hnone : s.data.nominals.get? key = none := by rw [hempty]; rfl
    exact hnone ▸ .absent
  | append_singleton ops op ih =>
    have hstep : (s.performAll (ops ++ [op])).data.nominals.get? key =
        op.relist key ((s.performAll ops).data.nominals.get? key) := by
      rw [performAll_append]
      exact get?_nominals_perform _ op key
    rw [hstep]
    by_cases hop : op = .deleteNominals key.unit key.attr
    · subst hop
      rw [insertedSince_deletion, Operation.relist, if_pos rfl]
      exact .absent
    · rw [insertedSince_concat hop]
      exact ih.relist hop

/-- The nominal list of a unit and attribute, told by the operations before. -/
structure IsHistory (s : Store) (key : NominalKey) (ops : List Operation) (l : NominalList) :
    Prop where
  /-- It names the unit. -/
  unit_eq : l.unit = key.unit
  /-- It names the attribute. -/
  attr_eq : l.attr = key.attr
  /-- No two of its values have one index. -/
  nodup : (l.nominals.map (·.index)).Nodup
  /-- The indexes are those inserted since the last deletion, in the order in which each of
  them first came. -/
  map_index : l.nominals.map (·.index) =
    ((insertedSince key ops).map (·.index)).eraseDups
  /-- The values are those that were set last under their indexes. -/
  mem_iff : ∀ n, n ∈ l.nominals ↔ s.SetLast key ops n

/-- What nominal lists are after operations. -/
structure RemembersNominals (s : Store) (ops : List Operation) : Prop where
  /-- A query for a list answers nothing exactly if no value was inserted since its last
  deletion, and else the list that the operations tell. -/
  listed : ∀ unit attr, ∃ answer,
    perform (.nominals unit attr) (s.performAll ops) = (.ok answer, s.performAll ops) ∧
    (answer = none ↔ insertedSince ⟨unit, attr⟩ ops = []) ∧
    ∀ l, answer = some l → s.IsHistory ⟨unit, attr⟩ ops l
  /-- An update is accepted exactly if its index is in the list. -/
  accepted : ∀ unit attr n, ∃ b,
    (perform (.updateNominal unit attr n) (s.performAll ops)).1 = .ok b ∧
    (b = true ↔ ∃ l, (perform (.nominals unit attr) (s.performAll ops)).1 = .ok (some l) ∧
      n.index ∈ l.nominals.map (·.index))
  /-- An update that is not accepted changes nothing. -/
  refused : ∀ unit attr n,
    (perform (.updateNominal unit attr n) (s.performAll ops)).1 = .ok false →
    (perform (.updateNominal unit attr n) (s.performAll ops)).2 = s.performAll ops
  /-- An operation that is not about a list leaves it. -/
  others : ∀ (op : Operation) unit attr, op.nominalKey? ≠ some ⟨unit, attr⟩ →
    (perform (.nominals unit attr) (perform op (s.performAll ops)).2).1 =
      (perform (.nominals unit attr) (s.performAll ops)).1

/-- From a store without nominal lists on, each list has one value for each index inserted
since its last deletion, in the order of their first insertions, and this is the value that
was set last. -/
theorem remembers_nominals {s : Store} (hempty : s.data.nominals = .empty)
    (ops : List Operation) : s.RemembersNominals ops := by
  have hlisted : (s.performAll ops).data.Listed :=
    listed_performAll (by rw [Dataset.Listed, hempty]; exact .empty) ops
  refine ⟨fun unit attr => ?_, fun unit attr n => ?_, fun unit attr n hfalse => ?_,
    fun op unit attr hop => ?_⟩
  · have hindexes := listsIndexes_performAll hempty ops ⟨unit, attr⟩
    refine ⟨_, rfl, hindexes.none_iff, fun l hl => ?_⟩
    have hof := hlisted _ _ hl
    refine ⟨hof.unit_eq, hof.attr_eq, hof.nodup, hindexes.map_index l hl, fun n => ?_⟩
    rw [← nominalAt?_performAll hempty, nominalAt?, hl, Option.bind_some, NominalList.find?,
      find?_key_eq_some_iff hof.nodup]
    exact (and_iff_left rfl).symm
  · refine ⟨_, rfl, ?_⟩
    rw [Dataset.updateNominal_found]
    constructor
    · intro hthere
      obtain ⟨m, hm⟩ := Option.isSome_iff_exists.mp hthere
      obtain ⟨l, hl, hfind⟩ := Option.bind_eq_some_iff.mp hm
      refine ⟨l, congrArg Except.ok hl, ?_⟩
      exact NominalList.isSome_find?_iff.mp (Option.isSome_of_eq_some hfind)
    · rintro ⟨l, hl, hmem⟩
      rw [Except.ok.inj hl]
      exact NominalList.isSome_find?_iff.mpr hmem
  · have hsame := Dataset.updateNominal_eq_self (Except.ok.inj hfalse)
    exact congrArg (fun data => { s.performAll ops with data }) hsame
  · refine congrArg Except.ok ?_
    rw [get?_nominals_perform, Operation.relist_of_ne hop]

/-- A list is begun, deleted and begun again. An update comes too early, another is accepted,
and an index is inserted again after a second one; another list has the same indexes. -/
def genreSample : List Operation :=
  [.insertNominal "item" "genre" ⟨"comedy", 3, -1⟩,
    .updateNominal "item" "genre" ⟨"crime", 1, -1⟩,
    .deleteNominals "item" "genre",
    .insertNominal "item" "genre" ⟨"crime", 1, -1⟩,
    .insertNominal "user" "genre" ⟨"jazz", 1, -1⟩,
    .insertNominal "item" "genre" ⟨"drama", 0, -1⟩,
    .updateNominal "item" "genre" ⟨"noir", 1, 0⟩,
    .insertNominal "item" "genre" ⟨"tragedy", 0, -1⟩]

/-- Nominal lists after a run that deletes one of them. -/
theorem remembers_nominals_genre :
    let s := Store.of .default .empty []
    s.data.nominals = .empty ∧ s.RemembersNominals genreSample ∧
      (insertedSince ⟨"item", "genre"⟩ genreSample).map (·.index) = [1, 0, 0] ∧
      (perform (.nominals "item" "genre") (s.performAll genreSample)).1 =
        .ok (some ⟨"item", "genre", [⟨"noir", 1, 0⟩, ⟨"tragedy", 0, -1⟩]⟩) := by
  have hlist : ((Store.of .default .empty []).performAll genreSample).data.nominals.get?
      ⟨"item", "genre"⟩ = some ⟨"item", "genre", [⟨"noir", 1, 0⟩, ⟨"tragedy", 0, -1⟩]⟩ := by
    decide +kernel
  exact ⟨rfl, remembers_nominals rfl genreSample, by decide +kernel, congrArg Except.ok hlist⟩

end Store

end RatingServer
