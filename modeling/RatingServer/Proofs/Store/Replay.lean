import RatingServer.Proofs.Server.Calls
import RatingServer.Proofs.Store.Nominals

/-!
# A store made again from its snapshot

A snapshot can be inserted into an empty store, one vector, profile, nominal value and
record after the other. The store that this leaves has the data of the one that was
copied: each table is made again from its entries, because none has an empty row and
each row names the key under which it stands. Only units that are neither those of
users nor of items are not in a snapshot.
-/

namespace RatingServer

/-- A table is made again from its values, if each of them is inserted under its key. -/
theorem Table.foldl_values {κ α : Type} [Ord κ] [Std.TransOrd κ] [Std.LawfulEqOrd κ]
    [DecidableEq κ] {P : κ → α → Prop} {f : Table κ α → α → Table κ α}
    (hf : ∀ {t : Table κ α} {k v}, t.Each P → P k v → t.get? k = none → f t v = t.insert k v)
    {t : Table κ α} (ht : t.Each P) : t.values.foldl f .empty = t := by
  have hfold : ∀ (l : List (κ × α)) (t : Table κ α), t.Each P → (∀ e ∈ l, P e.1 e.2) →
      (l.map (·.1)).Nodup → (∀ e ∈ l, t.get? e.1 = none) →
      (l.map (·.2)).foldl f t = l.foldl (fun t e => t.insert e.1 e.2) t := by
    intro l
    induction l with
    | nil => exact fun _ _ _ _ _ => rfl
    | cons e l ih =>
      intro t ht hl hdistinct hnew
      obtain ⟨he, hl⟩ := List.forall_mem_cons.mp hl
      obtain ⟨hnone, hnew⟩ := List.forall_mem_cons.mp hnew
      rw [List.map_cons, List.nodup_cons] at hdistinct
      rw [List.map_cons, List.foldl_cons, List.foldl_cons, hf ht he hnone]
      refine ih _ (ht.insert he) hl hdistinct.2 fun e' he' => ?_
      have hne : e'.1 ≠ e.1 := fun heq => hdistinct.1 (heq ▸ List.mem_map_of_mem he')
      rw [get?_insert, if_neg hne, hnew e' he']
  refine (hfold t.entries .empty .empty ?_ t.nodup_keys fun _ _ => rfl).trans t.ofList_entries
  exact fun e he => ht _ _ (get?_eq_some_iff.mpr he)

/-- Of two values under one key the later counts. -/
theorem Table.insert_insert {κ α : Type} [Ord κ] [Std.TransOrd κ] [Std.LawfulEqOrd κ]
    [DecidableEq κ] (t : Table κ α) (k : κ) (a b : α) :
    (t.insert k a).insert k b = t.insert k b := by
  refine ext_get? fun k' => ?_
  rw [get?_insert, get?_insert, get?_insert]
  split
  · rfl
  · rfl

/-- Inserts the ratings of a vector. -/
def RatingRows.putAll (t : RatingRows) (v : RatingVector) : RatingRows :=
  (t.forEach (fun t c r => (true, t.put c r)) v).2

/-- A vector that is inserted leaves its ratings over those that were there. -/
theorem RatingRows.at?_putAll (t : RatingRows) (v : RatingVector) :
    (t.putAll v).at? = RatingMap.overwrite t.at? v :=
  Dataset.at?_insertRatings { ratings := t } v

/-- Vectors that are inserted stay in rows that are kept. -/
theorem RatingRows.each_foldl_putAll {t : RatingRows} (ht : t.Each Kept)
    (vs : List RatingVector) : (vs.foldl putAll t).Each Kept := by
  induction vs generalizing t with
  | nil => exact ht
  | cons v vs ih =>
    have hsound : Dataset.Sound { ratings := t } := ⟨ht, .empty⟩
    exact ih (hsound.insertRatings v).rows

/-- The vector of a user is inserted as its row, if it has none. -/
theorem RatingRows.putAll_of_kept {t : RatingRows} (ht : t.Each Kept) {user : Int32}
    {v : RatingVector} (hv : Kept user v) (hnone : t.get? user = none) :
    t.putAll v = t.insert user v := by
  refine ext_at? (each_foldl_putAll ht [v]) (ht.insert hv) ?_
  refine (t.at?_putAll v).trans (funext fun c => ?_)
  obtain ⟨⟨hid, hside⟩, -⟩ := hv
  have hcell : v.at? c = if c.user = user then v.ratings.get? c.item else none := by
    rw [RatingVector.at?, hid, hside]
    rfl
  rw [RatingMap.overwrite, hcell]
  by_cases hc : c.user = user
  · have hfree : t.at? c = none := at?_of_get?_none (hc ▸ hnone)
    have hrow : (t.insert user v).get? c.user = some v := by rw [Table.get?_insert, if_pos hc]
    rw [at?_of_get? hrow, hfree, Option.or_none, if_pos hc]
  · have hother : (t.insert user v).get? c.user = t.get? c.user := by
      rw [Table.get?_insert, if_neg hc]
    rw [at?, at?, hother, if_neg hc, Option.none_or]

/-- Inserts a profile of a unit. -/
def Profile.insertInto (unit : String) (m : Table String (Table Int32 Profile)) (p : Profile) :
    Table String (Table Int32 Profile) :=
  m.insert unit (((m.get? unit).getD .empty).insert p.id p)

/-- Insertions of profiles change the table of their unit, and that of no other. -/
theorem Profile.unit_foldl_insertInto (unit unit' : String) (ps : List Profile)
    (m : Table String (Table Int32 Profile)) :
    ((ps.foldl (insertInto unit) m).get? unit').getD .empty =
      if unit' = unit then ps.foldl (fun t p => t.insert p.id p) ((m.get? unit).getD .empty)
      else (m.get? unit').getD .empty := by
  induction ps generalizing m with
  | nil =>
    by_cases hunit : unit' = unit
    · rw [if_pos hunit, hunit]
      rfl
    · rw [if_neg hunit]
      rfl
  | cons p ps ih =>
    rw [List.foldl_cons, ih, insertInto, Table.get?_insert, if_pos rfl, Table.get?_insert]
    by_cases hunit : unit' = unit
    · rw [if_pos hunit, if_pos hunit]
      rfl
    · rw [if_neg hunit, if_neg hunit, if_neg hunit]

/-- Inserts a value into the list of a unit and attribute, which is begun if there is
none. -/
def Nominal.insertInto (key : NominalKey) (t : Table NominalKey NominalList) (n : Nominal) :
    Table NominalKey NominalList :=
  t.insert key (((t.get? key).getD { unit := key.unit, attr := key.attr }).upsert n)

/-- Values that are inserted into a list are in it, one after the other. -/
theorem Nominal.foldl_insertInto (key : NominalKey) (t : Table NominalKey NominalList)
    (n : Nominal) (ns : List Nominal) :
    (n :: ns).foldl (insertInto key) t =
      t.insert key ((n :: ns).foldl NominalList.upsert
        ((t.get? key).getD { unit := key.unit, attr := key.attr })) := by
  induction ns generalizing t n with
  | nil => rfl
  | cons m ns ih =>
    rw [List.foldl_cons, ih, insertInto, Table.insert_insert, Table.get?_insert, if_pos rfl]
    rfl

/-- A list is inserted, value by value, if there is none under its unit and attribute. -/
theorem NominalList.foldl_insertInto {t : Table NominalKey NominalList} {key : NominalKey}
    {l : NominalList} (hl : l.IsOf key) (hnone : t.get? key = none) :
    l.nominals.foldl (Nominal.insertInto ⟨l.unit, l.attr⟩) t = t.insert key l := by
  obtain ⟨unit, attr, nominals⟩ := l
  obtain ⟨rfl, rfl, hne, hdistinct⟩ := hl
  obtain ⟨n, ns, rfl⟩ := List.exists_cons_of_ne_nil hne
  refine (Nominal.foldl_insertInto key t n ns).trans ?_
  rw [hnone, Option.getD_none, NominalList.foldl_upsert hdistinct, List.nil_append]

/-- The operations that insert what a snapshot has. -/
def Snapshot.insertions (s : Snapshot) : List Operation :=
  s.userRatings.map .insertRatings ++
  s.userProfiles.map (.insertProfile .user · none) ++
  s.itemProfiles.map (.insertProfile .item · none) ++
  s.nominals.flatMap (fun l => l.nominals.map (.insertNominal l.unit l.attr)) ++
  s.externalRecords.map fun (i, e) => .insertExternal i e

namespace Store

/-- Insertions of vectors put their ratings. -/
theorem performAll_insertRatings (vs : List RatingVector) (s : Store) :
    s.performAll (vs.map .insertRatings) =
      { s with data.ratings := vs.foldl RatingRows.putAll s.data.ratings } := by
  induction vs generalizing s with
  | nil => rfl
  | cons v vs ih => exact ih (perform (.insertRatings v) s).2

/-- Insertions of profiles without records leave profiles. -/
theorem performAll_insertProfile (side : Side) (ps : List Profile) (s : Store) :
    s.performAll (ps.map (.insertProfile side · none)) =
      { s with data.profiles := ps.foldl (Profile.insertInto side.name) s.data.profiles } := by
  induction ps generalizing s with
  | nil => rfl
  | cons p ps ih => exact ih (perform (.insertProfile side p none) s).2

/-- Insertions of values into one list. -/
theorem performAll_insertNominal (key : NominalKey) (ns : List Nominal) (s : Store) :
    s.performAll (ns.map (.insertNominal key.unit key.attr)) =
      { s with data.nominals := ns.foldl (Nominal.insertInto key) s.data.nominals } := by
  induction ns generalizing s with
  | nil => rfl
  | cons n ns ih => exact ih (perform (.insertNominal key.unit key.attr n) s).2

/-- Insertions of the values of lists. -/
theorem performAll_insertNominals (ls : List NominalList) (s : Store) :
    s.performAll (ls.flatMap fun l => l.nominals.map (.insertNominal l.unit l.attr)) =
      { s with
        data.nominals := ls.foldl
          (fun t l => l.nominals.foldl (Nominal.insertInto ⟨l.unit, l.attr⟩) t)
          s.data.nominals } := by
  induction ls generalizing s with
  | nil => rfl
  | cons l ls ih =>
    rw [List.flatMap_cons, performAll_append, ih, performAll_insertNominal ⟨l.unit, l.attr⟩,
      List.foldl_cons]

/-- Insertions of external records. -/
theorem performAll_insertExternal (es : List (InternalRecord × ExternalRecord)) (s : Store) :
    s.performAll (es.map fun (i, e) => .insertExternal i e) =
      { s with data.external := es.foldl (fun t e => t.insert e.1 e.2) s.data.external } := by
  induction es generalizing s with
  | nil => rfl
  | cons e es ih => exact ih (perform (.insertExternal e.1 e.2) s).2

end Store

/-- Data that agree in all that a snapshot has. -/
structure Dataset.Alike (d d' : Dataset) : Prop where
  /-- The ratings are the same. -/
  ratings_eq : d.ratings = d'.ratings
  /-- The profiles of users and of items are the same. -/
  unit_eq : ∀ side : Side, d.unit side.name = d'.unit side.name
  /-- The nominal lists are the same. -/
  nominals_eq : d.nominals = d'.nominals
  /-- The external records are the same. -/
  external_eq : d.external = d'.external

namespace Dataset.Alike

variable {d d' : Dataset} (h : d.Alike d')
include h

/-- The same ids are known. -/
theorem ids_eq (side : Side) : d.ids side = d'.ids side := by
  have hrated : d.ratedIds side = d'.ratedIds side := by
    cases side <;> rw [ratedIds, ratedIds, h.ratings_eq]
  rw [ids, ids, hrated, h.unit_eq]

/-- The same vectors are found. -/
theorem vector?_eq (side : Side) : d.vector? side = d'.vector? side := by
  funext id
  cases side with
  | user => rw [vector?, vector?, h.ratings_eq]
  | item => rw [vector?, vector?, ratingsOfItem, ratingsOfItem, h.ratings_eq]

/-- The same vectors are listed. -/
theorem vectors_eq (side : Side) : d.vectors side = d'.vectors side := by
  cases side with
  | user => rw [vectors, vectors, h.ratings_eq]
  | item => rw [vectors, vectors, h.ids_eq, h.vector?_eq]

/-- The same profiles are listed. -/
theorem rows_eq (side : Side) : d.rows side.name = d'.rows side.name := by
  rw [rows, rows, h.unit_eq]

/-- The same profiles are found. -/
theorem profile?_eq (side : Side) : d.profile? side.name = d'.profile? side.name := by
  funext id
  rw [profile?, profile?, h.unit_eq]

/-- The same profiles are found by what another system calls them. -/
theorem profileOfExternal?_eq (side : Side) (value : String) :
    d.profileOfExternal? side.name value = d'.profileOfExternal? side.name value := by
  rw [profileOfExternal?, profileOfExternal?, h.external_eq, h.profile?_eq]

/-- The profiles have the same attributes. -/
theorem attributes?_eq (side : Side) :
    d.attributes? side.name = d'.attributes? side.name := by
  rw [attributes?, attributes?, h.rows_eq]

end Dataset.Alike

namespace Store

/-- A store that was empty has all of a snapshot's content after its insertions, if the
snapshot is that of a store that can be reached. -/
theorem Reachable.alike_performAll {s : Store} (h : s.Reachable) {e : Store}
    (hempty : e.data = {}) : (e.performAll s.snapshot.insertions).data.Alike s.data := by
  rw [Snapshot.insertions]
  simp only [performAll_append, performAll_insertRatings, performAll_insertProfile,
    performAll_insertNominals, performAll_insertExternal, hempty]
  refine ⟨?_, ?_, ?_, ?_⟩
  · exact Table.foldl_values (fun ht hv hnone => RatingRows.putAll_of_kept ht hv hnone) h.sound.rows
  · have hrows : ∀ side : Side, (s.data.unit side.name).values.foldl
        (fun t p => t.insert p.id p) .empty = s.data.unit side.name := fun side =>
      Table.foldl_values (fun _ hid _ => by rw [hid]) (h.sound.unit side.name)
    intro side
    rw [Dataset.unit, Profile.unit_foldl_insertInto, Profile.unit_foldl_insertInto,
      Profile.unit_foldl_insertInto]
    cases side with
    | user => exact hrows .user
    | item => exact hrows .item
  · exact Table.foldl_values (fun _ hl hnone => NominalList.foldl_insertInto hl hnone) h.listed
  · exact Table.ofList_entries _

/-- The copies of stores are the same if their data are alike. -/
theorem snapshot_eq_of_alike {s t : Store} (h : t.data.Alike s.data)
    (hconfig : t.config = s.config) : t.snapshot = s.snapshot := by
  rw [snapshot, snapshot, hconfig, h.vectors_eq, h.rows_eq, h.rows_eq, h.nominals_eq,
    h.external_eq]

end Store

/-- The operations that ask for ratings, for profiles of users or items, for nominal lists
or external records, or for a copy of all of them. -/
def Operation.asksCopied : Operation → Bool
  | ids _ | ratingsOf _ _ | allRatings _ | ratingsBySql _ _ | profileOf _ _
  | profileOfExternal _ _ | profiles _ | profilesBySql _ _ | attributes _ | externalOf _ _
  | nominals _ _ | external _ | snapshot | settings => true
  | findRow unit _ | rowAttributes unit => [Side.user.name, Side.item.name].contains unit
  | _ => false

/-- The units of users and of items are the two sides. -/
private theorem Side.exists_name {unit : String}
    (h : [Side.user.name, Side.item.name].contains unit = true) : ∃ s : Side, s.name = unit := by
  rw [List.contains_iff_mem, List.mem_cons, List.mem_singleton] at h
  exact h.elim (fun hu => ⟨.user, hu.symm⟩) fun hi => ⟨.item, hi.symm⟩

namespace Store

/-- Stores answer alike if their data are alike. -/
theorem answer_eq_of_alike {s t : Store} (h : t.data.Alike s.data) (hconfig : t.config = s.config)
    {op : Operation} (hop : op.asksCopied = true) : (perform op t).1 = (perform op s).1 := by
  cases op with
  | ids side => simp only [perform, h.ids_eq]
  | ratingsOf side id => simp only [perform, h.vector?_eq]
  | allRatings side => simp only [perform, h.vectors_eq]
  | ratingsBySql side sql => rfl
  | profileOf side id => simp only [perform, h.profile?_eq]
  | profileOfExternal side value => simp only [perform, h.profileOfExternal?_eq]
  | profiles side => simp only [perform, h.rows_eq]
  | profilesBySql side sql => rfl
  | attributes side => simp only [perform, h.attributes?_eq]
  | externalOf side id => simp only [perform, h.external_eq]
  | nominals unit attr => simp only [perform, h.nominals_eq]
  | external i => simp only [perform, h.external_eq]
  | snapshot => simp only [perform, snapshot_eq_of_alike h hconfig]
  | settings => simp only [perform, hconfig]
  | findRow unit c =>
    obtain ⟨side, rfl⟩ := Side.exists_name hop
    simp only [perform, Dataset.find?, h.rows_eq]
  | rowAttributes unit =>
    obtain ⟨side, rfl⟩ := Side.exists_name hop
    simp only [perform, h.attributes?_eq]
  | _ => cases hop

/-- Operations leave the configuration. -/
theorem performAll_config (s : Store) (ops : List Operation) :
    (s.performAll ops).config = s.config := by
  induction ops generalizing s with
  | nil => rfl
  | cons op ops ih => rw [performAll, List.foldl_cons, ← performAll, ih, perform_frame]

/-- A store made again from a snapshot of another answers all queries for what is in it as
the other does, and has the same snapshot. -/
theorem Reachable.snapshot_replay {s e : Store} (h : s.Reachable) (hempty : e.data = {})
    (hconfig : e.config = s.config) :
    let t := e.performAll s.snapshot.insertions
    (∀ op : Operation, op.asksCopied = true → (perform op t).1 = (perform op s).1) ∧
      t.snapshot = s.snapshot := by
  intro t
  have halike : t.data.Alike s.data := h.alike_performAll hempty
  have hkept : t.config = s.config := (performAll_config e _).trans hconfig
  exact ⟨fun op hop => answer_eq_of_alike halike hkept hop, snapshot_eq_of_alike halike hkept⟩

/-- A store with ratings, a profile of an item with its record, and a nominal list. -/
def copiedSample : Store :=
  (Store.of .default .empty []).performAll
    [.insertRatings ⟨13, .item, .ofList [(1, { value := 2.0 }), (2, { value := 4.5 })]⟩,
      .deleteRatingsOf .user 1,
      .insertProfile .item { id := 13 } (some ⟨"book", "isbn", "978"⟩),
      .insertNominal "item" "genre" ⟨"drama", 0, -1⟩,
      .insertNominal "item" "genre" ⟨"crime", 1, -1⟩,
      .updateNominal "item" "genre" ⟨"tragedy", 0, -1⟩]

/-- A store with content is made again from its snapshot. -/
theorem Reachable.snapshot_replay_sample :
    let s := copiedSample
    let e := Store.of .default .empty ["mean"]
    let t := e.performAll s.snapshot.insertions
    s.Reachable ∧ s.snapshot.insertions.length = 5 ∧ e.data = {} ∧ e.config = s.config ∧
      (∀ op : Operation, op.asksCopied = true → (perform op t).1 = (perform op s).1) ∧
      t.snapshot = s.snapshot := by
  have h : copiedSample.Reachable := .performAll (.new _ _ _) _
  have hconfig : (Store.of .default .empty ["mean"]).config = copiedSample.config :=
    (performAll_config (.of .default .empty []) _).symm
  exact ⟨h, by decide +kernel, rfl, hconfig, h.snapshot_replay rfl hconfig⟩

end Store

end RatingServer
