import RatingServer.Proofs.Response.Answers
import RatingServer.Proofs.Session.Exchange
import RatingServer.Proofs.Session.FrontDoors

/-!
# Calls over a connection

An operation that is called over a connection to a session of a running server
answers what the store of the server answers, and leaves the store as the operation
leaves it. Nothing else changes: the connection and the session stay open and logged
in, and the measure of the requests in flight is as before.
-/

namespace RatingServer

open Wire Json

namespace Session

variable {ℓ : Type} [Listener ℓ]

/-- A session with the privileges of the service answers an operation with what the
store of the running server answers. -/
theorem answer_operation {s : Session} {caller : Caller} {v : Server ℓ} {op : Operation}
    (hop : ∀ account password privileges, op ≠ .validateAccount account password privileges)
    (hkind : s.kind = .service) (hcaller : s.caller = some caller)
    (haccess : caller.privileges.contains .access = true)
    (hevaluate : caller.privileges.contains .evaluate = true) (hrunning : v.isRunning = true) :
    s.answer v (.of (.operation op)) =
      (.ofAnswer op.kind (Store.perform op v.store).1, s,
        { v with store := (Store.perform op v.store).2 }) := by
  have hbody := Request.of_body (.operation op)
  have hprivileges : caller.privileges.contains (Request.of (.operation op)).body.required = true := by
    rw [hbody]
    rcases Body.required_operation hop with h | h <;> rw [h] <;> assumption
  rw [answer_service hbody hop hkind hcaller, if_pos hrunning, if_pos hprivileges]
  rfl

end Session

namespace Connection

variable {ℓ : Type} [Listener ℓ]

/-- A connection that is logged in at a session, between two requests. -/
def attached (s : Session) : Connection ServedConnection where
  stream := some { peer := some { session := s } }
  authenticated := true

/-- A request that reads back is sent over the connection, and its reply is read,
when the session answers it with a response that can be sent. -/
theorem send_attached {s : Session} {v v' : Server ℓ} {r : Request} {response : Response}
    (hbody : r.body ≠ .quit) (hback : ∀ x, r.Carries x → ReadsBack x)
    (hlength : (utf8 r.encode).length ≤ maxLineLength)
    (hanswer : s.answer v r = (response, s, v')) (hsend : response.Sendable r.binary) :
    Connection.send ServedConnection.peer r (attached s) v = (.ok response.reset, attached s, v') := by
  have hexchange := Session.exchange_answer hback hlength hanswer hsend
  rw [if_neg hbody] at hexchange
  unfold Session.stream at hexchange
  rw [send_of_ready rfl rfl hbody]
  unfold transmit attached
  dsimp only
  rw [hexchange]
  rfl

end Connection

namespace Channel

variable {ℓ : Type} [Listener ℓ]

/-- Calling an operation over a connection is calling it on the store: the answer is
that of the store, the store changes as the operation changes it, and nothing else of
the server, the session or the connection changes. The session is logged in on the
socket of the service with the privileges to use the service and evaluators, and the
server runs. The numbers of the request and of the response are finite and their
texts read back, and neither of the two is longer than what is sent. -/
theorem service_over_connection (op : Operation) (s : Session) (caller : Caller) (v : Server ℓ)
    (hop : ∀ account password privileges, op ≠ .validateAccount account password privileges)
    (hkind : s.kind = .service) (hcaller : s.caller = some caller)
    (haccess : caller.privileges.contains .access = true)
    (hevaluate : caller.privileges.contains .evaluate = true) (hrunning : v.isRunning = true)
    (hasked : ∀ x, (Request.of (.operation op)).Carries x → x.isFinite = true)
    (htold : ∀ x, (Response.ofAnswer op.kind (Store.perform op v.store).1).Carries x →
      x.isFinite = true)
    (hback : ∀ x, (Request.of (.operation op)).Carries x ∨
      (Response.ofAnswer op.kind (Store.perform op v.store).1).Carries x →
        x.isFinite = true → ReadsBack x)
    (hrequest : (utf8 (Request.of (.operation op)).encode).length < maxLineLength)
    (hline : (utf8 (Response.ofAnswer op.kind (Store.perform op v.store).1).encode).length <
      maxLineLength)
    (hframe : (Response.format.put (Response.ofAnswer op.kind (Store.perform op v.store).1)).length ≤
      maxFrameLength) :
    Channel.service (Connection.send ServedConnection.peer) op (Connection.attached s, v) =
      ((Store.perform op v.store).1, Connection.attached s,
        { v with store := (Store.perform op v.store).2 }) := by
  have hbody : (Request.of (.operation op)).body ≠ .quit := by
    rw [Request.of_body]
    exact fun h => by cases h
  have hanswer := Session.answer_operation hop hkind hcaller haccess hevaluate hrunning
  have hsend : (Response.ofAnswer op.kind (Store.perform op v.store).1).Sendable
      (Request.of (.operation op)).binary := by
    unfold Response.Sendable
    split
    · exact hframe
    · exact ⟨hline, fun x hx => hback x (.inr hx) (htold x hx)⟩
  have hcall := Connection.send_attached hbody
    (fun x hx => hback x (.inl hx) (hasked x hx)) (Nat.le_of_lt hrequest) hanswer hsend
  unfold Channel.service
  dsimp only
  rw [hcall, Store.reset_ofAnswer_perform]
  show (Response.toAnswer op.kind _, _) = _
  rw [Store.toAnswer_ofAnswer_perform]

/-- A running server that has learned from one rating. -/
def sampleServer : Server ExitSignal :=
  ((Server.of { data := { ratings := RatingRows.put .empty ⟨7, 1⟩ ⟨4.5, none⟩ } }).control .start).2

/-- A session that is logged in for the service and evaluators. -/
def sampleSession : Session where
  id := "1"
  kind := .service
  peer := .loopback 0
  caller := some (.ofSession "1" "guest" .evaluate)

/-- An operation with a number in its request and in its response. -/
def sampleEstimate : Operation :=
  .estimate { ratings := ⟨7, .user, Table.empty.insert 2 ⟨4.5, some 12⟩⟩ } (.ofList [1])

/-- An estimate that is asked for over a connection. -/
theorem service_over_connection_sample :
    Channel.service (Connection.send ServedConnection.peer) sampleEstimate
        (Connection.attached sampleSession, sampleServer) =
      ((Store.perform sampleEstimate sampleServer.store).1, Connection.attached sampleSession,
        { sampleServer with store := (Store.perform sampleEstimate sampleServer.store).2 }) := by
  have hasked : (Request.of (.operation sampleEstimate)).toJson.numbers =
      [.integer 7, .integer 2, .real 4.5, .integer 12, .integer 1] := by decide +kernel
  have htold : (Response.format.toJson (.ofAnswer sampleEstimate.kind
      (Store.perform sampleEstimate sampleServer.store).1)).numbers =
        [.integer 7, .integer 1, .real 4.5] := by decide +kernel
  have hback : ∀ {j : Json}, (∃ ns, j.numbers = ns ∧
      ∀ n ∈ ns, n = .real 4.5 ∨ ∃ k, n = .integer k) → ∀ x, Holds j x → ReadsBack x :=
    fun ⟨_, hj, h⟩ _ hx => Request.readsBack_sample hj h hx
  have hrequest := hback ⟨_, hasked, by simp⟩
  have hresponse := hback ⟨_, htold, by simp⟩
  refine service_over_connection sampleEstimate sampleSession _ sampleServer
    (fun _ _ _ h => by cases h) rfl rfl (by decide) (by decide) (by decide +kernel) ?_ ?_ ?_
    (by decide +kernel) (by decide +kernel) (by decide +kernel)
  · exact fun x hx => (hrequest x hx).isFinite
  · exact fun x hx => (hresponse x hx).isFinite
  · rintro x (hx | hx) -
    · exact hrequest x hx
    · exact hresponse x hx

end Channel

end RatingServer
