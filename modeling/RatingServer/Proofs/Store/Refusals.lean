import RatingServer.Proofs.Store.Deletions
import RatingServer.Proofs.Store.Interleaving

/-!
# Requests that are turned down

A request that is answered with an error or with false may still change how the data are
kept: an update of a profile that is not there makes its unit known, and a deletion of
ratings sweeps the vectors without any. But it changes nothing that an operation answers,
then or later. And a deletion that is answered with true shows in the answer to a query.
-/

namespace RatingServer

/-- The answers that turn a request down: errors, and false. -/
def ResultKind.TurnsDown : {kind : ResultKind} → Except CallError kind.Answer → Prop
  | _, .error _ => True
  | .flag, .ok b => b = false
  | _, .ok _ => False

/-- The answer that says that a request was carried out: true. -/
def ResultKind.Grants : {kind : ResultKind} → Except CallError kind.Answer → Prop
  | .flag, .ok b => b = true
  | _, _ => False

namespace Operation

/-- The operations that delete something. -/
def deletes : Operation → Bool
  | deleteRatings _ | deleteRatingsOf _ _ | deleteProfile _ _ | deleteNominals _ _
  | deleteExternal _ | deleteSamples _ | deleteRows _ _ => true
  | _ => false

/-- The operations that insert, update or delete something. All others are queries. -/
def writes : Operation → Bool
  | insertRatings _ | updateRatings _ | insertProfile _ _ _ | updateProfile _ _
  | insertNominal _ _ _ | updateNominal _ _ _ | insertExternal _ _ | updateExternal _ _
  | insertSample _ | updateSample _ | insertRow _ _ | updateRow _ _ => true
  | op => op.deletes

end Operation

open ResultKind

/-- A write that finds nothing leaves the ratings. -/
theorem RatingWrite.after_of_not_finds {w : RatingWrite} {m : RatingMap} (h : ¬w.Finds m) :
    w.after m = m := by
  funext c
  by_cases hc : c ∈ w.places
  · have hnamed := mem_places_iff.mp hc
    cases w with
    | insert v => exact absurd (v.isEmpty_eq_false_iff.mpr ⟨c, hnamed⟩) h
    | update v =>
      have hnone : m c = none := Option.not_isSome_iff_eq_none.mp fun hm => h ⟨c, hnamed, hm⟩
      rw [after, RatingMap.revise, hnone]
      rfl
    | delete v =>
      have hnone : m c = none := Option.not_isSome_iff_eq_none.mp fun hm => h ⟨c, hnamed, hm⟩
      rw [after, RatingMap.without, hnone, ite_self]
  · exact after_of_not_mem hc m

/-- The line of a user or item without ratings may be taken away. -/
theorem RatingMap.withoutLine_of_not_rates {m : RatingMap} {side : Side} {id : Int32}
    (h : ¬m.Rates side id) : m.withoutLine side id = m := by
  funext c
  rw [withoutLine]
  by_cases hid : c.along side = id
  · rw [if_pos hid]
    exact (Option.not_isSome_iff_eq_none.mp fun hc => h (rates_iff.mpr ⟨c, hid, hc⟩)).symm
  · rw [if_neg hid]

namespace Dataset

/-- Data cannot be told apart from themselves. -/
theorem Indistinct.refl (d : Dataset) : d.Indistinct d := ⟨rfl, fun _ => rfl, rfl, rfl⟩

/-- A write of profiles that finds nothing leaves data that cannot be told from those
before: at most a unit is known from then on. -/
theorem Sound.indistinct_writeProfiles {d : Dataset} (h : d.Sound) {w : ProfileWrite}
    (hfalse : (d.writeProfiles w).1 = false) : (d.writeProfiles w).2.Indistinct d := by
  have hidle : ¬w.Finds d.profile? := by
    rw [← h.writeProfiles_found, hfalse]
    exact Bool.false_ne_true
  have hprofiles := h.profile?_writeProfiles w
  have hframe := d.writeProfiles_frame w
  refine ⟨by rw [hframe], fun unit => ?_, by rw [hframe], ?_⟩
  · refine Table.ext_get? fun id => ?_
    have hplace := congrFun (congrFun hprofiles unit) id
    rwa [ProfileWrite.after, ProfileWrite.touch_of_not_finds hidle] at hplace
  · refine Table.ext_get? fun i => ?_
    rw [h.external_writeProfiles, ProfileWrite.recordTouch_of_ne, Touch.on]
    rw [ProfileWrite.touch_of_not_finds hidle]
    exact Touch.leaves_ne_clears

/-- An update of a record that finds nothing leaves the data. -/
theorem updateExternal_eq_self {d : Dataset} {i : InternalRecord} {e : ExternalRecord}
    (hfalse : (d.updateExternal i e).1 = false) : (d.updateExternal i e).2 = d := by
  rw [updateExternal] at hfalse ⊢
  by_cases hthere : d.external.contains i = true
  · rw [if_pos hthere] at hfalse
    cases hfalse
  · rw [if_neg hthere]

end Dataset

namespace Store

/-- Stores that are the same cannot be told apart. -/
theorem Indistinct.of_eq {s t : Store} (h : s = t) : s.Indistinct t :=
  ⟨h ▸ .refl _, h ▸ rfl⟩

/-- A change of the data that leaves ones which cannot be told from those before. -/
theorem indistinct_changed {s : Store} {r : Bool × Dataset} (h : r.2.Indistinct s.data) :
    (s.changed r).2.Indistinct s := ⟨h, rfl⟩

/-- A write of ratings that answers false leaves the store, if it leaves the ratings where
it finds nothing. -/
theorem Writes.eq_self {s : Store} {r : Except CallError Bool × Store} {found : Prop}
    {after : RatingMap} (hw : s.Writes r found after) (h : s.Reachable) (hr : r.2.Reachable)
    (hidle : ¬found → after = s.ratingMap) (hfalse : r.1 = .ok false) : r.2 = s := by
  obtain ⟨b, hb, hfound⟩ := hw.answered
  rw [hfalse, Except.ok.injEq] at hb
  have hnot : ¬found := by
    rw [← hfound, ← hb]
    exact Bool.false_ne_true
  exact hr.eq_of_ratingMap h (hw.rated.trans (hidle hnot)) hw.frame

/-- A request that is turned down leaves a store that cannot be told from the one before. -/
theorem Reachable.indistinct_perform {s : Store} (h : s.Reachable) {op : Operation}
    (hdown : TurnsDown (perform op s).1) : (perform op s).2.Indistinct s := by
  have hrating : ∀ w : RatingWrite, (s.write w).1 = .ok false → (s.write w).2.Indistinct s :=
    fun w hfalse => .of_eq <| (s.writes_write w).eq_self h (h.write w)
      RatingWrite.after_of_not_finds hfalse
  have hprofile : ∀ w : ProfileWrite, (s.data.writeProfiles w).1 = false →
      (s.changed (s.data.writeProfiles w)).2.Indistinct s :=
    fun w hfalse => indistinct_changed (h.sound.indistinct_writeProfiles hfalse)
  have hdata : ∀ d : Dataset, d = s.data → ({ s with data := d } : Store).Indistinct s :=
    fun d heq => .of_eq (heq ▸ rfl)
  cases op with
  | insertRatings v => exact hrating (.insert v) (congrArg Except.ok hdown)
  | updateRatings v => exact hrating (.update v) (congrArg Except.ok hdown)
  | deleteRatings v => exact hrating (.delete v) (congrArg Except.ok hdown)
  | deleteRatingsOf side id =>
    exact .of_eq <| (h.writes_deleteRatingsOf side id).eq_self h (.performed _ h)
      RatingMap.withoutLine_of_not_rates (congrArg Except.ok hdown)
  | updateProfile side p => exact hprofile (.update side.name p) hdown
  | deleteProfile side id => exact hprofile (.delete side.name id) hdown
  | updateSample p => exact hprofile (.update sampleUnit p) hdown
  | deleteSamples c => exact hprofile (.deleteMatching sampleUnit c) hdown
  | updateRow unit p => exact hprofile (.update unit p) hdown
  | deleteRows unit c => exact hprofile (.deleteMatching unit c) hdown
  | updateNominal unit attr n => exact hdata _ (Dataset.updateNominal_eq_self hdown)
  | updateExternal i e => exact hdata _ (Dataset.updateExternal_eq_self hdown)
  | deleteNominals unit attr =>
    have hsame : s.data.nominals.erase ⟨unit, attr⟩ = s.data.nominals :=
      Table.erase_eq_self hdown
    exact hdata _ (congrArg (fun nominals => { s.data with nominals }) hsame)
  | deleteExternal i =>
    have hsame : s.data.external.erase i = s.data.external := Table.erase_eq_self hdown
    exact hdata _ (congrArg (fun external => { s.data with external }) hsame)
  -- Insertions other than of ratings are always carried out.
  | insertProfile | insertNominal | insertExternal | insertSample | insertRow =>
    exact Bool.noConfusion (show true = false from hdown)
  | _ => exact .of_eq rfl

/-- A rating that is no longer the same shows in the answer to a query for its user. -/
theorem ratingsOf_ne {s t : Store} {c : Cell} (h : s.ratingMap c ≠ t.ratingMap c) :
    (perform (.ratingsOf .user c.user) s).1 ≠ (perform (.ratingsOf .user c.user) t).1 := by
  intro heq
  have hrow : s.data.ratings.get? c.user = t.data.ratings.get? c.user := Except.ok.inj heq
  exact h (congrArg (·.bind (·.ratings.get? c.item)) hrow)

/-- A deletion by a condition that is carried out shows in the answer to a query by the
same condition. -/
theorem DeletesMatches.findRow_ne {s : Store} {unit : String} {condition : Profile}
    {r : Except CallError Bool × Store} (h : s.DeletesMatches unit condition r)
    (htrue : r.1 = .ok true) :
    (perform (.findRow unit condition) r.2).1 ≠ (perform (.findRow unit condition) s).1 := by
  obtain ⟨b, hb, hmatch⟩ := h.answered
  obtain ⟨answer, hanswer, hfinds⟩ := h.found
  rw [htrue, Except.ok.injEq] at hb
  obtain ⟨p, hp⟩ := hmatch.mp hb.symm
  rw [h.gone, hanswer]
  cases answer with
  | none => exact absurd hp (hfinds p)
  | some q => exact nofun

/-- An answer is another one when what was there is gone. -/
private theorem ok_ne_of_isSome {α : Type} {before after : Option α}
    (hbefore : before.isSome = true) (hafter : after = none) :
    (.ok after : Except CallError (Option α)) ≠ .ok before := by
  intro heq
  rw [← Except.ok.inj heq, hafter] at hbefore
  cases hbefore

/-- A write of ratings that takes away a rating at a place of which it answers that there is
one. -/
theorem Writes.ratingsOf_ne {s : Store} {r : Except CallError Bool × Store} {found : Prop}
    {after : RatingMap} (hw : s.Writes r found after)
    (hgone : found → ∃ c, (s.ratingMap c).isSome = true ∧ after c = none)
    (htrue : r.1 = .ok true) :
    ∃ c : Cell, (perform (.ratingsOf .user c.user) r.2).1 ≠
      (perform (.ratingsOf .user c.user) s).1 := by
  obtain ⟨b, hb, hfound⟩ := hw.answered
  rw [htrue, Except.ok.injEq] at hb
  obtain ⟨c, hthere, hnone⟩ := hgone (hfound.mp hb.symm)
  refine ⟨c, Store.ratingsOf_ne fun heq => ?_⟩
  rw [← heq, hw.rated, hnone] at hthere
  cases hthere

/-- A deletion that is carried out shows in the answer to a query. -/
theorem Reachable.exists_query_ne {s : Store} (h : s.Reachable) {op : Operation}
    (hop : op.deletes = true) (hgrant : Grants (perform op s).1) :
    ∃ query : Operation, query.writes = false ∧
      (perform query (perform op s).2).1 ≠ (perform query s).1 := by
  cases op with
  | deleteRatings v =>
    have hwrites := s.writes_write (.delete v)
    obtain ⟨c, hne⟩ := hwrites.ratingsOf_ne (fun ⟨c, hnamed, hthere⟩ =>
      ⟨c, hthere, if_pos hnamed⟩) (congrArg Except.ok hgrant)
    exact ⟨.ratingsOf .user c.user, rfl, hne⟩
  | deleteRatingsOf side id =>
    have hwrites := h.writes_deleteRatingsOf side id
    obtain ⟨c, hne⟩ := hwrites.ratingsOf_ne (fun hrates => by
      obtain ⟨c, hid, hthere⟩ := RatingMap.rates_iff.mp hrates
      exact ⟨c, hthere, if_pos hid⟩) (congrArg Except.ok hgrant)
    exact ⟨.ratingsOf .user c.user, rfl, hne⟩
  | deleteProfile side id =>
    have hthere : (s.data.profile? side.name id).isSome = true := by
      rw [← Dataset.deleteProfile_found]
      exact hgrant
    have hgone := s.data.profile?_deleteProfile side.name id side.name id
    exact ⟨.profileOf side id, rfl, ok_ne_of_isSome hthere (hgone.trans (if_pos ⟨rfl, rfl⟩))⟩
  | deleteNominals unit attr =>
    have hgone := s.data.nominals.get?_erase ⟨unit, attr⟩ ⟨unit, attr⟩
    exact ⟨.nominals unit attr, rfl, ok_ne_of_isSome hgrant (hgone.trans (if_pos rfl))⟩
  | deleteExternal i =>
    have hgone := s.data.external.get?_erase i i
    exact ⟨.external i, rfl, ok_ne_of_isSome hgrant (hgone.trans (if_pos rfl))⟩
  | deleteSamples c =>
    have hdeletes := h.deletesMatches sampleUnit c
    exact ⟨.findRow sampleUnit c, rfl, hdeletes.findRow_ne (congrArg Except.ok hgrant)⟩
  | deleteRows unit c =>
    have hdeletes := h.deletesMatches unit c
    exact ⟨.findRow unit c, rfl, hdeletes.findRow_ne (congrArg Except.ok hgrant)⟩
  | _ => cases hop

/-- What the answers to writes say of the queries after them. -/
structure AnswersTell (s : Store) : Prop where
  /-- After a request that is turned down, every operation is answered as if it had not been
  made, at once or after any others. -/
  refused : ∀ op : Operation, TurnsDown (perform op s).1 → ∀ later query,
    (perform query ((perform op s).2.performAll later)).1 =
      (perform query (s.performAll later)).1
  /-- After a deletion that is carried out, a query is answered differently. -/
  deleted : ∀ op : Operation, op.deletes = true → Grants (perform op s).1 →
    ∃ query : Operation, query.writes = false ∧
      (perform query (perform op s).2).1 ≠ (perform query s).1

/-- A request that is turned down cannot be seen, and a deletion that is carried out can. -/
theorem Reachable.answers_tell {s : Store} (h : s.Reachable) : s.AnswersTell where
  refused _ hdown later query :=
    (((h.indistinct_perform hdown).performAll later).perform query).answer_eq
  deleted _ hop hgrant := h.exists_query_ne hop hgrant

/-- A profile of an unknown unit cannot be updated. The request changes how the data are
kept, and yet it cannot be seen, while a deletion can. -/
theorem Reachable.answers_tell_shop :
    let refused : Operation := .updateRow "shop" ⟨1, .empty⟩
    let deleted : Operation := .deleteRows "user" ⟨0, .ofList [("genre", .string "jazz")]⟩
    jazzSample.Reachable ∧ jazzSample.AnswersTell ∧
      TurnsDown (perform refused jazzSample).1 ∧ (perform refused jazzSample).2 ≠ jazzSample ∧
      deleted.deletes = true ∧ Grants (perform deleted jazzSample).1 := by
  have h : jazzSample.Reachable := Reachable.performAll (.new _ _ _) _
  refine ⟨h, h.answers_tell, ?_, by decide +kernel, rfl, ?_⟩
  · show (jazzSample.data.updateProfile "shop" ⟨1, .empty⟩).1 = false
    decide +kernel
  · show (jazzSample.data.deleteMatching "user" ⟨0, .ofList [("genre", .string "jazz")]⟩).1 = true
    decide +kernel

end Store

end RatingServer
