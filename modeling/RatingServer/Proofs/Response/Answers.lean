import RatingServer.Proofs.Wire.Values
import RatingServer.Store.Basic

/-!
# Answers that come back from their responses

The response for an answer tells that answer to the caller of the operation. This
holds of everything that a store answers: its only error is a failure of its own,
and its row cursors stand before their first rows.
-/

namespace RatingServer

namespace Response

/-- The answer that a response was made of is told by the response, if an error is
told by its failure. -/
theorem toAnswer_ofAnswer {kind : ResultKind} {a : Except CallError kind.Answer}
    (h : ∀ e, a = .error e → CallError.ofFailure e.toFailure = e) :
    (ofAnswer kind a).toAnswer kind = a := by
  cases a with
  | error e =>
    have he := h e rfl
    have hfailure : ofAnswer kind (.error e) = .failure e.toFailure := rfl
    rw [hfailure]
    cases kind <;> simp only [toAnswer, expect, he, Except.map]
  | ok a =>
    cases kind with
    | flag => rfl
    | texts => rfl
    | attributes => cases a <;> rfl
    | settings => cases a <;> rfl
    | ratingRows => cases a <;> rfl
    | profileRows => cases a <;> rfl
    | idRows => cases a <;> rfl
    | nominals => cases a <;> rfl
    | profile => cases a <;> rfl
    | snapshot => cases a <;> rfl
    | text => cases a <;> rfl
    | ratings => cases a <;> rfl
    | record => cases a <;> rfl
    | evaluator => cases a <;> rfl

/-- A response for a value that may be absent is seen as it is when the value is. -/
theorem reset_ofOption {kind : ResultKind} {o : Option kind.Value}
    (h : ∀ value, o = some value → kind.reset value = value) :
    (ofOption kind o).reset = ofOption kind o := by
  cases o with
  | none => rfl
  | some value =>
    show result kind (kind.reset value) = result kind value
    rw [h value rfl]

end Response

namespace Store

/-- The only error of a store is the one of a query in SQL. -/
theorem perform_error {op : Operation} {s : Store} {e : CallError}
    (h : (perform op s).1 = .error e) : e = noSql := by
  cases op with
  | ratingsBySql side sql => exact (Except.error.inj h).symm
  | profilesBySql side sql => exact (Except.error.inj h).symm
  | samplesBySql sql => exact (Except.error.inj h).symm
  | rowsBySql sql => exact (Except.error.inj h).symm
  | _ => cases h

/-- A cursor over rows stands before the first of them. -/
theorem reset_of_cursor? {α : Type} {rows : List α} {c : RowCursor α}
    (h : cursor? rows = some c) : c.reset = c := by
  unfold cursor? at h
  split at h
  · cases h
  · cases h
    rfl

/-- The response for what a store answers is seen as it is. -/
theorem reset_ofAnswer_perform (op : Operation) (s : Store) :
    (Response.ofAnswer op.kind (perform op s).1).reset =
      Response.ofAnswer op.kind (perform op s).1 := by
  cases op with
  | ids side => exact Response.reset_ofOption fun _ h => reset_of_cursor? h
  | allRatings side => exact Response.reset_ofOption fun _ h => reset_of_cursor? h
  | profiles side => exact Response.reset_ofOption fun _ h => reset_of_cursor? h
  | _ => first
    | rfl
    | exact Response.reset_ofOption fun _ _ => rfl

/-- What a store answers is told by the response for it. -/
theorem toAnswer_ofAnswer_perform (op : Operation) (s : Store) :
    (Response.ofAnswer op.kind (perform op s).1).toAnswer op.kind = (perform op s).1 := by
  refine Response.toAnswer_ofAnswer fun e he => ?_
  rw [perform_error he]
  rfl

end Store

end RatingServer
