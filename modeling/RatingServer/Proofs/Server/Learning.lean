import RatingServer.Proofs.Server.Parts
import RatingServer.Proofs.Store.Means
import RatingServer.Proofs.Store.Recommendations
import RatingServer.Proofs.Table.Histories

/-!
# What a server estimates by

A server learns when it starts and when its periodic tasks run, and at no other time. All
that it estimates is told by the ratings that were there when it learned last, or by none if
it has not learned yet: what has been written since reaches only the vector of the user for
whom it estimates, and the items that may be recommended.
-/

namespace RatingServer

/-- The estimate of the rating that a user would give an item, by ratings that were seen: the
mean of those of the item, else that of the user's own, else that of all. -/
def estimateBy? (seen : List (Cell × Rating)) (u : RatingVector) (item : Int32) : Option Double :=
  meanOf? (ratingsFor item seen) <|> u.mean? <|> meanOf? seen

/-- A model estimates by ratings that were seen. -/
def MeanModel.EstimatesBy (m : MeanModel) (seen : List (Cell × Rating)) : Prop :=
  ∀ u item, m.estimate? u item = estimateBy? seen u item

/-- A model that has learned nothing estimates by no ratings. -/
theorem MeanModel.estimatesBy_nil : ({} : MeanModel).EstimatesBy [] := fun _ _ => rfl

/-- A model that has learned from a dataset estimates by its ratings. -/
theorem MeanModel.estimatesBy_learn (d : Dataset) : (learn d).EstimatesBy d.ratings.listing := by
  intro u item
  have hlearns := learns_learn d
  rw [estimate?, hlearns.item_eq, hlearns.global_eq, estimateBy?]

namespace Store

/-- The estimates of a store by ratings that were seen. -/
structure EstimatesBy (s : Store) (seen : List (Cell × Rating)) : Prop where
  /-- Estimates for a target are answered unless there are none. -/
  estimate : ∀ (t : RecommendTarget) (items : IdSet), ∃ answer,
    perform (.estimate t items) s = (.ok answer, s) ∧
      (answer = none ↔ ∀ item ∈ items.keys, estimateBy? seen t.ratings item = none) ∧
      ∀ r, answer = some r → r.id = t.ratings.id ∧ r.side = .user ∧ ∀ item,
        r.ratings.get? item = if item ∈ items.keys
          then (estimateBy? seen t.ratings item).map ({ value := · }) else none
  /-- What is recommended for a target is recommended with its estimates. -/
  recommend : ∀ (t : RecommendTarget) (limit : Int32), ∃ answer,
    perform (.recommend t limit) s = (.ok answer, s) ∧ ∀ r, answer = some r →
      ∀ item x, r.ratings.get? item = some x →
        ∃ value, estimateBy? seen t.ratings item = some value ∧ x = { value }
  /-- What is recommended to a user is recommended with the estimates for the stored vector,
  or an empty one. -/
  recommendUser : ∀ id limit : Int32, ∃ stored answer,
    perform (.ratingsOf .user id) s = (.ok stored, s) ∧
      perform (.recommendUser id limit) s = (.ok answer, s) ∧ ∀ r, answer = some r →
        ∀ item x, r.ratings.get? item = some x → ∃ value,
          estimateBy? seen (stored.getD { id, side := .user }) item = some value ∧ x = { value }

/-- A store whose model estimates by ratings does so itself. -/
theorem estimatesBy {s : Store} {seen : List (Cell × Rating)} (h : s.model.EstimatesBy seen) :
    s.EstimatesBy seen := by
  have hrecommend : ∀ (u : RatingVector) (limit : Int32) (r : RatingVector),
      s.model.recommend u (s.data.ids .item) limit = some r →
      ∀ item x, r.ratings.get? item = some x →
        ∃ value, estimateBy? seen u item = some value ∧ x = { value } := by
    intro u limit r hr item x hx
    have hbest := s.model.isRecommendation_recommend u (s.data.nodup_ids .item) limit
    rw [hr] at hbest
    obtain ⟨-, value, hvalue, hx⟩ := hbest.2.estimated item x hx
    exact ⟨value, (h u item).symm.trans hvalue, hx⟩
  refine ⟨fun t items => ⟨_, rfl, ?_, fun r hr => ?_⟩, fun t limit => ⟨_, rfl, hrecommend _ _⟩,
    fun id limit => ⟨_, _, rfl, rfl, hrecommend _ _⟩⟩
  · rw [MeanModel.nonempty?_eq_none_iff]
    refine forall_congr' fun item => ?_
    rw [MeanModel.get?_estimates _ _ items.nodup_keys, h]
    by_cases hitem : item ∈ items.keys
    · simp [hitem]
    · simp [hitem]
  · rw [MeanModel.eq_of_nonempty?_eq_some hr, MeanModel.estimates_eq]
    refine ⟨rfl, rfl, fun item => ?_⟩
    rw [← h, ← MeanModel.get?_estimates _ _ items.nodup_keys, MeanModel.estimates_eq]

end Store

namespace Server

variable {ℓ : Type} [Listener ℓ]

/-- A server learns from its ratings when it meets an errand: it does when it starts and
when its tasks run. -/
def learns (v : Server ℓ) : Errand ℓ → Bool
  | .call .start => (v.call .start).1.isOk
  | .tick => v.timer.isRunning
  | _ => false

/-- What a server has learned after a call. -/
theorem model_call (v : Server ℓ) (t : Transition) : (v.call t).2.store.model =
    if v.learns (.call t) then .learn v.store.data else v.store.model := by
  by_cases hr : ∃ e, v.Refuses t e
  · obtain ⟨e, hr⟩ := hr
    have hlearns : v.learns (.call t) = false := by
      cases t with
      | start => rw [learns, call_of_refuses hr]; rfl
      | _ => rfl
    rw [call_of_refuses hr, hlearns]
    rfl
  · have hcall := call_of_not_refuses (not_exists.mp hr)
    cases t with
    | start =>
      rw [learns, hcall]
      rfl
    | exit shutdownHook =>
      rw [hcall]
      dsimp only [Transition.hook?]
      split
      · rfl
      · rfl
    | pause | resume | stop | configure config =>
      rw [hcall]
      rfl

/-- What a server has learned after an errand. -/
theorem model_meet (v : Server ℓ) (e : Errand ℓ) :
    (v.meet e).store.model = if v.learns e then .learn v.store.data else v.store.model := by
  cases e with
  | call t => exact v.model_call t
  | shutdown => exact v.model_call (.exit true)
  | add listener =>
    rw [meet, addListener]
    split
    · rfl
    · rfl
  | remove id => rfl
  | work op => exact (congrArg Store.model (Store.perform_frame op v.store) :)
  | tick =>
    rw [meet, tick, learns]
    split
    · rfl
    · rfl

/-- A server learns nothing from errands that it meets one after another. -/
def LearnsNothing (v : Server ℓ) (errands : List (Errand ℓ)) : Prop :=
  ∀ before e after, errands = before ++ e :: after → (v.meetAll before).learns e = false

/-- The ratings that a server saw when it learned last: none if it has learned nothing from
errands, and otherwise those that were there at the last errand from which it learned. -/
inductive Saw (v : Server ℓ) (errands : List (Errand ℓ)) : List (Cell × Rating) → Prop
  /-- It has learned nothing. -/
  | nothing : v.LearnsNothing errands → Saw v errands []
  /-- It has learned from an errand, and nothing from all later ones. -/
  | last {before : List (Errand ℓ)} {e : Errand ℓ} {after : List (Errand ℓ)}
      {seen : List (Cell × Rating)} (hsplit : errands = before ++ e :: after)
      (hlearns : (v.meetAll before).learns e = true)
      (hlater : ((v.meetAll before).meet e).LearnsNothing after)
      (hseen : (v.meetAll before).store.data.ratings.at?.IsListing seen) : Saw v errands seen

/-- What an errand does to what a server has learned. -/
def modelTouch (v : Server ℓ) (e : Errand ℓ) : Touch MeanModel :=
  if v.learns e then .sets (.learn v.store.data) else .leaves

/-- An errand from which a server learns nothing leaves what it has learned. -/
theorem modelTouch_eq_leaves_iff {v : Server ℓ} {e : Errand ℓ} :
    v.modelTouch e = .leaves ↔ v.learns e = false := by
  rw [modelTouch]
  split
  · simp [*]
  · simp [*]

/-- An errand from which a server learns sets what it has learned. -/
theorem modelTouch_eq_sets_iff {v : Server ℓ} {e : Errand ℓ} {m : MeanModel} :
    v.modelTouch e = .sets m ↔ v.learns e = true ∧ m = .learn v.store.data := by
  rw [modelTouch]
  split
  · simp [*, eq_comm]
  · simp [*]

/-- After errands, a server that had learned nothing before estimates by the ratings that it
saw when it learned last. -/
theorem exists_saw {v : Server ℓ} (h : v.store.model = {}) (errands : List (Errand ℓ)) :
    ∃ seen, v.Saw errands seen ∧ (v.meetAll errands).store.model.EstimatesBy seen := by
  have hstep : ∀ (v : Server ℓ) (e : Errand ℓ), True →
      some (v.meet e).store.model = (v.modelTouch e).on (some v.store.model) := by
    intro v e _
    rw [model_meet, modelTouch]
    split
    · rfl
    · rfl
  have hnothing : ∀ (w : Server ℓ) (later : List (Errand ℓ)),
      Touch.Untouched meet modelTouch w later → w.LearnsNothing later :=
    fun w later huntouched before e after hsplit =>
      modelTouch_eq_leaves_iff.mp (huntouched before e after hsplit)
  have hrun := Touch.run_eq_some_iff (fun v : Server ℓ => some v.store.model)
    (fun _ _ _ => trivial) hstep (s := v) trivial errands (v.meetAll errands).store.model
  rcases hrun.mp rfl with ⟨hmodel, huntouched⟩ | ⟨before, e, after, hsplit, hsets, huntouched⟩
  · have hmodel : (v.meetAll errands).store.model = {} := by
      rw [← Option.some_inj.mp hmodel, h]
    rw [hmodel]
    exact ⟨[], .nothing (hnothing v errands huntouched), MeanModel.estimatesBy_nil⟩
  · obtain ⟨hlearns, hmodel⟩ := modelTouch_eq_sets_iff.mp hsets
    rw [hmodel]
    exact ⟨_, .last hsplit hlearns (hnothing _ _ huntouched) (RatingRows.isListing _),
      MeanModel.estimatesBy_learn _⟩

/-- What a server has learned and estimates by. -/
theorem estimates_by_last_learned (v : Server ℓ) (h : v.store.model = {})
    (errands : List (Errand ℓ)) :
    (∀ d, ∃ l, MeanModel.Learns d (.learn d) l) ∧
      ∃ seen, v.Saw errands seen ∧ (v.meetAll errands).store.EstimatesBy seen := by
  obtain ⟨seen, hsaw, hestimates⟩ := exists_saw h errands
  exact ⟨fun d => ⟨_, MeanModel.learns_learn d⟩, seen, hsaw, Store.estimatesBy hestimates⟩

/-- An item is rated by a user before the server starts, and by another one afterwards. -/
def lateErrands : List (Errand ExitSignal) :=
  let rate (user : Int32) (x : Double) : Operation :=
    .insertRatings ⟨user, .user, .ofList [(5, { value := x })]⟩
  [.work (rate 1 2.0), .call .start, .work (rate 2 4.0)]

/-- A server that was started between two ratings estimates by the first. -/
theorem estimates_by_last_learned_late :
    let v : Server ExitSignal := .of (.of .default .empty [])
    let target : RecommendTarget := { ratings := { id := 3, side := .user } }
    v.store.model = {} ∧
      ((∀ d, ∃ l, MeanModel.Learns d (.learn d) l) ∧
        ∃ seen, v.Saw lateErrands seen ∧ (v.meetAll lateErrands).store.EstimatesBy seen) ∧
      (v.meetAll lateErrands).store.model.estimate? target.ratings 5 = some 2.0 :=
  ⟨rfl, estimates_by_last_learned _ rfl lateErrands, by decide +kernel⟩

end Server

end RatingServer
