import RatingServer.ScriptedPeer
import RatingServer.Session

/-!
# What a connection transmits

A login is transmitted whenever the connection is open. Everything else is transmitted
only if, of the logins that the other end accepted or rejected, it accepted the last
one. A login may also end with neither, when its reply is a failure or makes no sense.
Such a login does not count: the connection stays as open to requests as it was, so
that a request may follow a login that went wrong.
-/

namespace RatingServer

open Wire

variable {π σ : Type}

/-- A reply that makes no sense rejects no account. -/
theorem mapError_couldNotDecode_ne {α : Type} (x : Except DecodeFault α) (account : String) :
    x.mapError CallError.couldNotDecode ≠ .error (.accountRejected account) := by
  cases x with
  | error f => nofun
  | ok a => nofun

/-- A line that cannot be read rejects no account. -/
theorem Stream.readLine_ne_accountRejected (st : Stream π) (account : String) :
    st.readLine.1 ≠ .error (.accountRejected account) := by
  unfold Stream.readLine
  dsimp only
  split
  · simp
  · split
    · simp
    · split
      · simp
      · split <;> simp

/-- A frame that cannot be read rejects no account. -/
theorem Frame.read_ne_accountRejected {α : Type} (f : Format α) (bs : Bytes)
    (account : String) : (Frame.read f bs).1 ≠ .error (.accountRejected account) := by
  unfold Frame.read
  split
  · simp
  · dsimp only
    split
    · simp
    · split
      · simp
      · exact mapError_couldNotDecode_ne _ account

/-- A reply that cannot be read rejects no account. -/
theorem Stream.readResponse_ne_accountRejected (binary : Bool) (st : Stream π)
    (account : String) : (st.readResponse binary).1 ≠ .error (.accountRejected account) := by
  unfold Stream.readResponse
  cases binary with
  | true => exact Frame.read_ne_accountRejected Response.format st.incoming account
  | false =>
    have hline := st.readLine_ne_accountRejected account
    simp only [Bool.false_eq_true, if_false]
    split
    · next e _ hread =>
      rw [hread] at hline
      simpa using hline
    · exact mapError_couldNotDecode_ne _ account

/-- A reply that holds no truth value rejects no account. -/
theorem Response.toAnswer_flag_ne_accountRejected (r : Response) (account : String) :
    r.toAnswer .flag ≠ .error (.accountRejected account) := by
  unfold Response.toAnswer Response.expect
  cases r with
  | empty => simp [Except.map]
  | result kind value =>
    dsimp only
    split <;> simp [Except.map]
  | failure f => cases f <;> simp [Except.map, CallError.ofFailure]

namespace Connection

/-- What is asked of a connection. -/
inductive Action where
  /-- To log in. -/
  | authenticate (account password : String) (privileges : Privileges)
  /-- To send a request. -/
  | send (r : Request)
  /-- To close. -/
  | close

namespace Action

/-- The request that an action has to transmit. -/
def request : Action → Request
  | authenticate account password privileges =>
    .of (.operation (.validateAccount account password privileges))
  | send r => r
  | close => .of .quit

/-- The actions that are logins. -/
def isLogin : Action → Bool
  | authenticate .. => true
  | _ => false

end Action

/-- A connection in use. -/
structure History (π σ : Type) where
  /-- The connection. -/
  connection : Connection π
  /-- The world around it. -/
  world : σ
  /-- How the logins ended, the last one at the end. -/
  logins : List (Except CallError Unit) := []

namespace History

/-- A new connection. -/
def begin (p : π) (s : σ) : History π σ := { connection := ofPeer p, world := s }

/-- The history after one more action. -/
def act (peer : Peer π σ) (h : History π σ) : Action → History π σ
  | .authenticate account password privileges =>
    let (outcome, c, s) := h.connection.authenticate peer account password privileges h.world
    { connection := c, world := s, logins := h.logins ++ [outcome] }
  | .send r =>
    let (_, c, s) := h.connection.send peer r h.world
    { h with connection := c, world := s }
  | .close =>
    let (c, s) := h.connection.close peer h.world
    { h with connection := c, world := s }

/-- The history after some actions. -/
def run (peer : Peer π σ) (h : History π σ) (as : List Action) : History π σ :=
  as.foldl (act peer) h

end History

/-- Whether the other end accepts the account, if it said so. -/
def verdict? : Except CallError Unit → Option Bool
  | .ok () => some true
  | .error (.accountRejected _) => some false
  | .error _ => none

/-- Only a rejected account makes an error a verdict. -/
theorem verdict?_error {e : CallError} (h : ∀ account, e ≠ .accountRejected account) :
    verdict? (.error e) = none := by
  cases e with
  | accountRejected account => exact absurd rfl (h account)
  | _ => rfl

/-- Of the logins that were accepted or rejected, the last one was accepted. -/
def History.Accepted (h : History π σ) : Prop :=
  (h.logins.filterMap verdict?).getLast? = some true

instance (h : History π σ) : Decidable h.Accepted :=
  inferInstanceAs (Decidable (_ = _))

/-- The world after a request is written to the stream, if there still is one. -/
def afterWriting (peer : Peer π σ) (c : Connection π) (r : Request) (s : σ) : σ :=
  match c.stream with
  | none => s
  | some st => (st.write peer (utf8 (r.encode ++ "\n")) s).2

/-- On a closed connection nothing is written. -/
theorem afterWriting_of_closed {peer : Peer π σ} {r : Request} {c : Connection π} {s : σ}
    (h : c.isOpen = false) : c.afterWriting peer r s = s := by
  have hstream : c.stream = none := by simpa [isOpen] using h
  unfold afterWriting
  rw [hstream]

/-- A request reaches the world by the line that is written. -/
theorem world_transmit (peer : Peer π σ) (r : Request) (c : Connection π) (s : σ) :
    (c.transmit peer r s).2.2 = c.afterWriting peer r s := by
  unfold transmit afterWriting
  cases c.stream with
  | none => rfl
  | some st => rfl

/-- An exchange leaves the login as it was. -/
theorem authenticated_transmit (peer : Peer π σ) (r : Request) (c : Connection π) (s : σ) :
    (c.transmit peer r s).2.1.authenticated = c.authenticated := by
  unfold transmit
  cases c.stream with
  | none => rfl
  | some st => rfl

/-- An exchange opens no connection. -/
theorem isOpen_of_transmit {peer : Peer π σ} {r : Request} {c : Connection π} {s : σ}
    (h : (c.transmit peer r s).2.1.isOpen = true) : c.isOpen = true := by
  unfold transmit at h
  unfold isOpen
  cases hstream : c.stream with
  | none => simp [hstream, isOpen] at h
  | some st => rfl

/-- An exchange that brings no truth value rejects no account. -/
theorem answer_transmit_ne_accountRejected (peer : Peer π σ) (r : Request) (c : Connection π)
    (s : σ) (account : String) :
    (c.transmit peer r s).1.bind (·.toAnswer .flag) ≠ .error (.accountRejected account) := by
  unfold transmit
  cases c.stream with
  | none => simp [Except.bind]
  | some st =>
    have hread := (st.write peer (utf8 (r.encode ++ "\n")) s).1.readResponse_ne_accountRejected
      r.binary account
    dsimp only [Stream.exchange]
    generalize (Stream.readResponse _ _).1 = response at hread ⊢
    cases response with
    | error e => simpa [Except.bind] using hread
    | ok response => exact response.toAnswer_flag_ne_accountRejected account

section Login

variable (peer : Peer π σ) (account password : String) (privileges : Privileges)
variable (c : Connection π) (s : σ)

/-- A login is transmitted. -/
theorem world_authenticate : (c.authenticate peer account password privileges s).2.2 =
    c.afterWriting peer (Action.authenticate account password privileges).request s := by
  rw [← world_transmit]
  unfold authenticate Action.request
  dsimp only
  split <;> rfl

/-- A connection remembers the verdict on a login. A login without one leaves it what it
remembered before. -/
theorem authenticated_authenticate :
    (c.authenticate peer account password privileges s).2.1.authenticated =
      (verdict? (c.authenticate peer account password privileges s).1).getD c.authenticated := by
  unfold authenticate
  dsimp only
  split
  · rfl
  · rfl
  · next e hanswer =>
    have hsilent : verdict? (.error e) = none :=
      verdict?_error fun name he =>
        answer_transmit_ne_accountRejected peer _ c s name (he ▸ hanswer)
    rw [hsilent, Option.getD_none]
    exact authenticated_transmit peer _ c s

/-- A login opens no connection. -/
theorem isOpen_of_authenticate
    (h : (c.authenticate peer account password privileges s).2.1.isOpen = true) :
    c.isOpen = true := by
  unfold authenticate at h
  dsimp only at h
  split at h <;> exact isOpen_of_transmit h

end Login

section Sending

variable (peer : Peer π σ) (r : Request) (c : Connection π) (s : σ)

/-- A request is transmitted if the connection is logged in. -/
theorem world_send : (c.send peer r s).2.2 =
    if c.authenticated then c.afterWriting peer r s else s := by
  have hwritten := world_transmit peer r c s
  unfold send
  cases hopen : c.isOpen with
  | false => simp [afterWriting_of_closed hopen]
  | true =>
    cases hlogin : c.authenticated with
    | false => simp
    | true =>
      simp only [Bool.not_true, Bool.false_eq_true, if_false, if_true]
      rw [← hwritten]
      split <;> simp_all

/-- A connection that is closed or not logged in refuses a request, and stays as it is. -/
theorem send_of_refused (h : c.isOpen = true → c.authenticated = false) :
    (c.send peer r s).2 = (c, s) := by
  unfold send
  cases hopen : c.isOpen with
  | false => simp
  | true => simp [h hopen]

/-- A connection that is open after a request was before, with the same login. -/
theorem isOpen_of_send (h : (c.send peer r s).2.1.isOpen = true) :
    c.isOpen = true ∧ (c.send peer r s).2.1.authenticated = c.authenticated := by
  have hkept := authenticated_transmit peer r c s
  unfold send at h ⊢
  cases hopen : c.isOpen with
  | false => simp [hopen] at h
  | true =>
    refine ⟨rfl, ?_⟩
    simp only [hopen, Bool.not_true, Bool.false_eq_true, if_false] at h ⊢
    cases hlogin : c.authenticated with
    | false => simpa using hlogin
    | true =>
      simp only [hlogin, Bool.not_true, Bool.false_eq_true, if_false] at h hkept ⊢
      rcases htransmit : c.transmit peer r s with ⟨response, c', s'⟩
      rw [htransmit] at h hkept
      cases response with
      | error e => exact hkept
      | ok response =>
        -- The reply to a farewell closes the connection.
        by_cases hquit : r.body = .quit
        · simp [hquit, isOpen] at h
        · simpa only [if_neg hquit] using hkept

/-- A farewell is transmitted if the connection is logged in. -/
theorem world_close : (c.close peer s).2 =
    if c.authenticated then c.afterWriting peer (.of .quit) s else s := by
  have hwritten := world_transmit peer (.of .quit) c s
  unfold close
  cases hopen : c.isOpen with
  | false => simp [afterWriting_of_closed hopen]
  | true =>
    cases c.authenticated with
    | false => simp
    | true => simp [hwritten]

/-- Closing leaves a closed connection. -/
theorem isOpen_close : (c.close peer s).1.isOpen = false := by
  unfold close
  split <;> rfl

end Sending

namespace History

/-- While it is open, the connection remembers the last verdict. -/
def Remembered (h : History π σ) : Prop :=
  h.connection.isOpen = true → (h.connection.authenticated = true ↔ h.Accepted)

/-- A new connection has no verdict to remember. -/
theorem remembered_begin (p : π) (s : σ) : (begin p s).Remembered := by
  intro _
  simp [begin, ofPeer, Accepted]

/-- Every action keeps the last verdict remembered. -/
theorem Remembered.act {h : History π σ} (hh : h.Remembered) (peer : Peer π σ) (a : Action) :
    (h.act peer a).Remembered := by
  intro hopen
  cases a with
  | authenticate account password privileges =>
    have hbefore := hh (isOpen_of_authenticate _ _ _ _ _ _ hopen)
    unfold Accepted at hbefore ⊢
    -- A verdict becomes the last one on both sides; without one both stay.
    simp only [History.act, authenticated_authenticate, List.filterMap_append]
    cases hverdict :
        verdict? (h.connection.authenticate peer account password privileges h.world).1 with
    | none => simpa [hverdict] using hbefore
    | some accepted => simp [hverdict]
  | send r =>
    have ⟨hbefore, hsame⟩ := isOpen_of_send _ _ _ _ hopen
    simp only [History.act, hsame]
    exact hh hbefore
  | close => simp [History.act, isOpen_close] at hopen

/-- So do all actions. -/
theorem Remembered.run {h : History π σ} (hh : h.Remembered) (peer : Peer π σ)
    (as : List Action) : (h.run peer as).Remembered := by
  induction as generalizing h with
  | nil => exact hh
  | cons a as ih => exact ih (hh.act peer a)

/-- What is transmitted only when logged in is transmitted only after an accepted login.
On a closed connection both say nothing, as nobody takes what is written. -/
theorem Remembered.ite_afterWriting {h : History π σ} (hh : h.Remembered) (peer : Peer π σ)
    (r : Request) :
    (if h.connection.authenticated then h.connection.afterWriting peer r h.world else h.world) =
      if h.Accepted then h.connection.afterWriting peer r h.world else h.world := by
  cases hopen : h.connection.isOpen with
  | false => rw [afterWriting_of_closed hopen, ite_self, ite_self]
  | true => simp only [hh hopen]

/-- What an action transmits is told by the last verdict. -/
theorem Remembered.world_act {h : History π σ} (hh : h.Remembered) (peer : Peer π σ)
    (a : Action) : (h.act peer a).world =
      if a.isLogin ∨ h.Accepted then h.connection.afterWriting peer a.request h.world
      else h.world := by
  cases a with
  | authenticate account password privileges =>
    rw [if_pos (.inl rfl)]
    exact world_authenticate peer account password privileges h.connection h.world
  | send r =>
    simp only [Action.isLogin, Bool.false_eq_true, false_or]
    rw [← hh.ite_afterWriting]
    exact world_send peer r h.connection h.world
  | close =>
    simp only [Action.isLogin, Bool.false_eq_true, false_or]
    rw [← hh.ite_afterWriting]
    exact world_close peer h.connection h.world

/-- Unless the last verdict accepted a login, requests come to nothing. -/
theorem Remembered.act_send {h : History π σ} (hh : h.Remembered) (hno : ¬ h.Accepted)
    (peer : Peer π σ) (r : Request) : h.act peer (.send r) = h := by
  have hrefused := send_of_refused peer r h.connection h.world fun hopen =>
    Bool.eq_false_iff.mpr fun hlogin => hno ((hh hopen).mp hlogin)
  simp only [History.act, hrefused]

end History

/-- After any calls on a new connection, whatever the other end does, a call transmits its
request if it is a login or the last verdict accepted one, and nothing otherwise. Then to
send a request does not even touch the stream. -/
theorem transmissions_after_logins (peer : Peer π σ) (p : π) (s : σ) (as : List Action)
    (a : Action) :
    let h := (History.begin p s).run peer as
    ((h.act peer a).world =
      if a.isLogin ∨ h.Accepted then h.connection.afterWriting peer a.request h.world
      else h.world) ∧
    (¬ h.Accepted → ∀ r, h.act peer (.send r) = h) := by
  intro h
  have hh : h.Remembered := (History.remembered_begin p s).run peer as
  exact ⟨hh.world_act peer a, fun hno => hh.act_send hno peer⟩

/-- Another end that accepts a login and answers the next with a failure. -/
def wavering : Script where
  replies := [{ bytes := (Reply.of (.result .flag true) false false).bytes, hangsUp := false },
    { bytes := (Reply.of (.failure .notRunning) false false).bytes, hangsUp := false }]
  received := [[]]

/-- Two logins of one account. -/
def relogin : List Action := List.replicate 2 (.authenticate "ann" "pw" .access)

/-- That a request is transmitted does not mean that the last login was accepted: it may
have ended with a failure, after an earlier one was accepted. -/
theorem transmission_after_failed_login :
    ¬ ∀ (π σ : Type) (peer : Peer π σ) (p : π) (s : σ) (as : List Action) (a : Action),
      let h := (History.begin p s).run peer as
      a.isLogin = false → (h.act peer a).world ≠ h.world →
        h.logins.getLast? = some (.ok ()) := by
  intro hall
  have hlast := hall ScriptedEnd Script Script.peer { number := 0 } wavering relogin
    (.send (.of (.operation (.ids .user)))) rfl (by decide +kernel)
  have hok := congrArg (Option.map Except.isOk) hlast
  revert hok
  decide +kernel

end Connection

end RatingServer
