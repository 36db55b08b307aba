import RatingServer.Dispatch
import RatingServer.Launch
import RatingServer.Proofs.Session.Steps

/-!
# The two ways to the service of a server

An operation reaches the service of a server over a session on its socket, or over a
binding of the same process to the service that is handed out for it. The session asks
first whether the server runs, and then whether the caller has the privileges; the
binding asks in the other order. Both leave the server in the same state, and they
answer alike unless both questions fail.
-/

namespace RatingServer

variable {ℓ : Type}

/-- An operation other than a login needs one of two privileges. -/
theorem Body.required_operation {op : Operation}
    (h : ∀ account password privileges, op ≠ .validateAccount account password privileges) :
    (Body.operation op).required = .access ∨ (Body.operation op).required = .evaluate := by
  rw [Body.required_operation_eq]
  cases op with
  | validateAccount account password privileges => exact absurd rfl (h account password privileges)
  | evaluator name => exact .inr rfl
  | evaluatorNames => exact .inr rfl
  | _ => exact .inl rfl

/-- Over a session an operation is refused if the server does not run, then if the
caller lacks a privilege, and else performed. -/
theorem Session.answer_service [Listener ℓ] {s : Session} {caller : Caller} {r : Request}
    {op : Operation} (hbody : r.body = .operation op)
    (hop : ∀ account password privileges, op ≠ .validateAccount account password privileges)
    (hkind : s.kind = .service) (hcaller : s.caller = some caller) (v : Server ℓ) :
    s.answer v r =
      let (response, v') :=
        if v.isRunning then
          if caller.privileges.contains r.body.required then v.served op
          else (.failure .permissionDenied, v)
        else (.failure .notRunning, v)
      (response, s, v') := by
  have hcall := answerCaller_operation hbody caller v
  unfold answer answerService
  rw [hbody, hkind]
  dsimp only
  split
  · rename_i account password asked hlogin
    exact absurd (Body.operation.inj hlogin) (hop account password asked)
  · rw [hcaller]
    dsimp only
    rw [hcall]
    rfl

/-- Over a binding an operation is refused if the caller lacks a privilege, then if the
server does not run, and else performed. -/
theorem LocalBinding.send_service {b : LocalBinding} {r : Request} {op : Operation}
    (hbody : r.body = .operation op)
    (hop : ∀ account password privileges, op ≠ .validateAccount account password privileges)
    (hopen : b.isOpen = true) (v : Server ℓ) :
    b.send Server.runningService r v =
      let (response, v') :=
        if b.caller.privileges.contains r.body.required then
          if v.isRunning then v.served op else (.failure .notRunning, v)
        else (.failure .permissionDenied, v)
      (.ok response, b, v') := by
  have hrunning : Server.runningService op v =
      if v.isRunning then
        ((Store.perform op v.store).1, { v with store := (Store.perform op v.store).2 })
      else (.error Server.refusal, v) := by
    unfold Server.runningService
    split
    · exact absurd rfl (hop _ _ _)
    · rfl
  have hdispatch : dispatch Server.runningService b.caller r v =
      if b.caller.privileges.contains r.body.required then
        if v.isRunning then v.served op else (.failure .notRunning, v)
      else (.failure .permissionDenied, v) := by
    unfold dispatch
    rw [hbody]
    dsimp only
    rw [hrunning]
    by_cases h : v.isRunning = true
    · rw [if_pos h, if_pos h]
      rfl
    · rw [if_neg h, if_neg h]
      rfl
  have hquit : ¬ r.body = .quit := by
    rw [hbody]
    nofun
  unfold send
  rw [if_pos hopen, hdispatch, if_neg hquit]

/-- A session and a binding whose callers have the same privileges leave the server in
the same state after any operation but a login. They give the same response exactly if
the server runs or the caller has the privileges for the operation. -/
theorem front_doors [Listener ℓ] (v : Server ℓ) (s : Session) (caller : Caller)
    (b : LocalBinding) (r : Request) (op : Operation) (hbody : r.body = .operation op)
    (hop : ∀ account password privileges, op ≠ .validateAccount account password privileges)
    (hkind : s.kind = .service) (hcaller : s.caller = some caller) (hopen : b.isOpen = true)
    (hprivileges : b.caller.privileges = caller.privileges) :
    (b.send Server.runningService r v).2.2 = (s.answer v r).2.2 ∧
      ((b.send Server.runningService r v).1 = .ok (s.answer v r).1 ↔
        v.isRunning = true ∨ caller.privileges.contains r.body.required = true) := by
  rw [Session.answer_service hbody hop hkind hcaller, LocalBinding.send_service hbody hop hopen,
    hprivileges]
  by_cases hrun : v.isRunning = true <;>
    by_cases hmay : caller.privileges.contains r.body.required = true <;>
      simp [hrun, hmay]

namespace FrontDoors

/-- Someone who may use the service, but no evaluators. -/
def reader : Caller := .ofSession "0" "reader" .access

/-- Someone who may use evaluators as well. -/
def scorer : Caller := .ofSession "0" "scorer" .evaluate

/-- A session on the socket of the service. -/
def session (caller : Caller) : Session where
  id := "0"
  kind := .service
  peer := .loopback 0
  caller := some caller

/-- The request for the names of the evaluators. -/
def evaluators : Request := .of (.operation .evaluatorNames)

/-- Someone who may use evaluators asks a server for them that is stopped. -/
theorem front_doors_sample :
    (({ caller := scorer } : LocalBinding).send Server.runningService evaluators
        (.of {} : Server ExitSignal)).2.2 =
      ((session scorer).answer (.of {} : Server ExitSignal) evaluators).2.2 ∧
    (({ caller := scorer } : LocalBinding).send Server.runningService evaluators
        (.of {} : Server ExitSignal)).1 =
      .ok ((session scorer).answer (.of {} : Server ExitSignal) evaluators).1 := by
  obtain ⟨hserver, hresponse⟩ := front_doors (.of {} : Server ExitSignal) (session scorer) scorer
    { caller := scorer } evaluators .evaluatorNames rfl nofun rfl rfl rfl rfl
  exact ⟨hserver, hresponse.mpr (.inr (by decide))⟩

/-- Someone who may use the service but no evaluators asks a stopped server for them.
The session answers that the server does not run, the binding that the caller may not
do this. -/
theorem front_doors_differ :
    ¬ ∀ (v : Server ExitSignal) (s : Session) (caller : Caller) (b : LocalBinding) (r : Request)
      (op : Operation), r.body = .operation op →
        (∀ account password privileges, op ≠ .validateAccount account password privileges) →
          s.kind = .service → s.caller = some caller → b.isOpen = true →
            b.caller.privileges = caller.privileges →
              caller.privileges.contains .access = true →
                (b.send Server.runningService r v).1 = .ok (s.answer v r).1 := by
  intro h
  have hsession : ((session reader).answer (.of {} : Server ExitSignal) evaluators).1 =
      .failure .notRunning := rfl
  have hbinding : (({ caller := reader } : LocalBinding).send Server.runningService evaluators
      (.of {} : Server ExitSignal)).1 = .ok (.failure .permissionDenied) := rfl
  have hsame := h (.of {}) (session reader) reader { caller := reader } evaluators .evaluatorNames
    rfl nofun rfl rfl rfl rfl (by decide)
  rw [hsession, hbinding] at hsame
  cases hsame

end FrontDoors

end RatingServer
