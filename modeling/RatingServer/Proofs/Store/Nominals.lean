import RatingServer.Proofs.Store.Profiles

/-!
# Nominal lists of reachable stores

A nominal list is begun by the first value that is inserted into it and deleted as a
whole, and a value takes the place of the one of its index. So in every store that can
be reached each list has values, of distinct indexes, and names the unit and attribute
under which it stands.
-/

namespace RatingServer

namespace NominalList

/-- A value whose index is new comes last. -/
theorem placed_of_not_mem {n : Nominal} {l : List Nominal} (h : n.index ∉ l.map (·.index)) :
    placed n l = l ++ [n] := by
  induction l with
  | nil => rfl
  | cons m l ih =>
    rw [List.map_cons, List.mem_cons, not_or] at h
    rw [placed, if_neg fun heq => h.1 heq.symm, ih h.2, List.cons_append]

/-- A value whose index is there takes its place, so that the indexes are the same. -/
theorem map_index_placed_of_mem {n : Nominal} {l : List Nominal}
    (h : n.index ∈ l.map (·.index)) : (placed n l).map (·.index) = l.map (·.index) := by
  induction l with
  | nil => cases h
  | cons m l ih =>
    rw [placed]
    split
    · rename_i heq
      rw [List.map_cons, List.map_cons, heq]
    · rename_i hne
      rw [List.map_cons, List.mem_cons] at h
      rw [List.map_cons, List.map_cons, ih (h.resolve_left fun heq => hne heq.symm)]

/-- Distinct indexes stay so when a value is placed. -/
theorem nodup_placed {l : List Nominal} (h : (l.map (·.index)).Nodup) (n : Nominal) :
    ((placed n l).map (·.index)).Nodup := by
  by_cases hmem : n.index ∈ l.map (·.index)
  · rwa [map_index_placed_of_mem hmem]
  · rw [placed_of_not_mem hmem, List.map_append, List.nodup_append]
    refine ⟨h, List.pairwise_singleton _ _, fun a ha b hb heq => hmem ?_⟩
    have hindex : b = n.index := List.mem_singleton.mp hb
    rwa [heq, hindex] at ha

/-- A list in which a value is placed has values. -/
theorem placed_ne_nil (n : Nominal) (l : List Nominal) : placed n l ≠ [] := by
  cases l with
  | nil => exact List.cons_ne_nil _ _
  | cons m l =>
    rw [placed]
    split
    · exact List.cons_ne_nil _ _
    · exact List.cons_ne_nil _ _

/-- Values of distinct indexes are placed one after the other. -/
theorem foldl_upsert {ns : List Nominal} {l : NominalList}
    (h : ((l.nominals ++ ns).map (·.index)).Nodup) :
    ns.foldl upsert l = { l with nominals := l.nominals ++ ns } := by
  induction ns generalizing l with
  | nil => rw [List.foldl_nil, List.append_nil]
  | cons n ns ih =>
    have hnew : n.index ∉ l.nominals.map (·.index) := by
      rw [List.map_append, List.nodup_append] at h
      exact fun hmem => h.2.2 _ hmem n.index List.mem_cons_self rfl
    have hplaced : l.upsert n = { l with nominals := l.nominals ++ [n] } := by
      rw [upsert, placed_of_not_mem hnew]
    rw [List.append_cons] at h
    rw [List.foldl_cons, hplaced, ih h]
    dsimp only
    rw [List.append_assoc, List.singleton_append]

/-- A list that is kept under a unit and attribute: it names both, and has values of
distinct indexes. -/
structure IsOf (key : NominalKey) (l : NominalList) : Prop where
  /-- It names the unit. -/
  unit_eq : l.unit = key.unit
  /-- It names the attribute. -/
  attr_eq : l.attr = key.attr
  /-- It has values. -/
  ne_nil : l.nominals ≠ []
  /-- Their indexes are distinct. -/
  nodup : (l.nominals.map (·.index)).Nodup

/-- A list in which a value is placed is kept as before. -/
theorem IsOf.upsert {key : NominalKey} {l : NominalList} (h : l.IsOf key) (n : Nominal) :
    (l.upsert n).IsOf key :=
  ⟨h.unit_eq, h.attr_eq, placed_ne_nil _ _, nodup_placed h.nodup n⟩

/-- A list that is begun by a value. -/
theorem isOf_begun (key : NominalKey) (n : Nominal) :
    ({ unit := key.unit, attr := key.attr : NominalList }.upsert n).IsOf key :=
  ⟨rfl, rfl, placed_ne_nil _ _, nodup_placed (l := []) .nil n⟩

end NominalList

namespace Dataset

/-- A write of profiles leaves the nominal lists. -/
theorem writeProfiles_nominals (d : Dataset) (w : ProfileWrite) :
    (d.writeProfiles w).2.nominals = d.nominals := by
  have hframe := d.writeProfiles_frame w
  exact (congrArg Dataset.nominals hframe :)

/-- An update of a nominal value that finds nothing leaves the data. -/
theorem updateNominal_eq_self {d : Dataset} {key : NominalKey} {n : Nominal}
    (hfalse : (d.updateNominal key n).1 = false) : (d.updateNominal key n).2 = d := by
  rw [updateNominal] at hfalse ⊢
  cases hlist : d.nominals.get? key with
  | none => rfl
  | some list =>
    rw [hlist] at hfalse
    dsimp only at hfalse ⊢
    by_cases hthere : (list.find? n.index).isSome = true
    · rw [if_pos hthere] at hfalse
      cases hfalse
    · rw [if_neg hthere]

/-- All nominal lists are kept under their units and attributes. -/
def Listed (d : Dataset) : Prop := d.nominals.Each NominalList.IsOf

/-- An insertion of a value keeps all lists. -/
theorem Listed.insertNominal {d : Dataset} (h : d.Listed) (key : NominalKey) (n : Nominal) :
    (d.insertNominal key n).Listed := by
  refine Table.Each.insert h ?_
  cases hlist : d.nominals.get? key with
  | none => exact NominalList.isOf_begun key n
  | some l => exact (h _ _ hlist).upsert n

/-- An update of a value keeps all lists. -/
theorem Listed.updateNominal {d : Dataset} (h : d.Listed) (key : NominalKey) (n : Nominal) :
    (d.updateNominal key n).2.Listed := by
  rw [Dataset.updateNominal]
  split
  · exact h
  · rename_i l hlist
    split
    · exact Table.Each.insert h ((h _ _ hlist).upsert n)
    · exact h

end Dataset

/-- The unit and attribute whose list an operation may change. -/
def Operation.nominalKey? : Operation → Option NominalKey
  | insertNominal unit attr _ | updateNominal unit attr _ | deleteNominals unit attr =>
    some ⟨unit, attr⟩
  | _ => none

namespace Store

/-- Operations that are not about a nominal list leave all of them. -/
theorem nominals_perform (s : Store) {op : Operation} (h : op.nominalKey? = none) :
    (perform op s).2.data.nominals = s.data.nominals := by
  cases op with
  | insertNominal unit attr n => cases h
  | updateNominal unit attr n => cases h
  | deleteNominals unit attr => cases h
  | deleteRatingsOf side id =>
    have hframe := s.data.deleteVector_frame side id
    exact (congrArg Dataset.nominals hframe :)
  | updateExternal i e =>
    have hframe := s.data.updateExternal_frame i e
    exact (congrArg Dataset.nominals hframe :)
  | insertProfile side p r => cases r <;> rfl
  | updateProfile side p => exact s.data.writeProfiles_nominals (.update side.name p)
  | deleteProfile side id => exact s.data.writeProfiles_nominals (.delete side.name id)
  | updateSample p => exact s.data.writeProfiles_nominals (.update sampleUnit p)
  | deleteSamples c => exact s.data.writeProfiles_nominals (.deleteMatching sampleUnit c)
  | updateRow unit p => exact s.data.writeProfiles_nominals (.update unit p)
  | deleteRows unit c => exact s.data.writeProfiles_nominals (.deleteMatching unit c)
  | _ => rfl

/-- Every operation keeps all nominal lists under their units and attributes. -/
theorem listed_perform {s : Store} (h : s.data.Listed) (op : Operation) :
    (perform op s).2.data.Listed := by
  cases op with
  | insertNominal unit attr n => exact h.insertNominal ⟨unit, attr⟩ n
  | updateNominal unit attr n => exact h.updateNominal ⟨unit, attr⟩ n
  | deleteNominals unit attr => exact Table.Each.erase h ⟨unit, attr⟩
  | _ =>
    rw [Dataset.Listed, s.nominals_perform rfl]
    exact h

/-- The nominal lists of every store that can be reached stand under their units and
attributes, and have values of distinct indexes. -/
theorem Reachable.listed {s : Store} (h : s.Reachable) : s.data.Listed := by
  induction h with
  | new config accounts evaluators => exact .empty
  | performed op _ ih => exact listed_perform ih op
  | opened config _ ih => exact ih
  | closed _ ih => exact ih
  | reconfigured config _ ih => exact ih
  | ranTasks _ ih => exact ih
  | shared accounts evaluators _ ih => exact ih

end Store

end RatingServer
