import RatingServer.Launch
import RatingServer.Proofs.Connection.Transmissions
import RatingServer.Proofs.Session.Exchange

/-!
# What the two ends of a connection hold of the login

The client's end of a connection remembers whether its last login was accepted, the
session at the other end who is logged in. The session changes with every account that
it validates, the connection only with its own logins: an account that is sent as a
request, and is rejected, logs the session out behind the back of the connection.
This, and a connection that is closed by an exchange that went wrong, are the only ways
in which the connection takes itself for logged in and the session is not.
-/

namespace RatingServer

open Wire

variable {ℓ : Type}

/-- What a server told a client of an account. -/
structure Verdict where
  /-- Whether the account was sent as a request, and not with a login of the connection. -/
  wasSent : Bool
  /-- Whether it was accepted. -/
  accepted : Bool
  deriving DecidableEq, Repr

/-- A connection to a session of a server, in use. -/
structure Conversation (ℓ : Type) where
  /-- The client's end. -/
  connection : Connection ServedConnection
  /-- The server. -/
  server : Server ℓ
  /-- What the server told the client of accounts, the last at the end. -/
  verdicts : List Verdict := []

namespace Conversation

/-- A new connection to a new session. -/
def begin (id : String) (kind : SocketKind) (address : SocketAddress) (v : Server ℓ) :
    Conversation ℓ where
  connection := .ofPeer { session := { id, kind, peer := address } }
  server := v

/-- The session at the other end is logged in; there is none on a closed connection. -/
def loggedIn (d : Conversation ℓ) : Bool :=
  (d.connection.stream.bind (·.peer)).any fun p => p.session.caller.isSome

/-- If the connection takes itself for logged in, so is the session. -/
def Agreed (d : Conversation ℓ) : Prop :=
  d.connection.authenticated = true → d.loggedIn = true

instance (d : Conversation ℓ) : Decidable d.Agreed :=
  inferInstanceAs (Decidable (_ → _))

/-- The verdict in the answer to a request that was sent. -/
def sentVerdict? (r : Request) : Except CallError Response → Option Bool
  | .ok response =>
    if (Login.ofRequest? r).isSome then (response.toAnswer .flag).toOption else none
  | .error _ => none

/-- Only the answer to a login holds a verdict. -/
theorem sentVerdict?_of_other {r : Request} (h : Login.ofRequest? r = none)
    (answer : Except CallError Response) : sentVerdict? r answer = none := by
  unfold sentVerdict?
  rw [h]
  cases answer <;> rfl

/-- Notes a verdict, if there is one. -/
def heard (verdicts : List Verdict) (wasSent : Bool) (verdict : Option Bool) : List Verdict :=
  verdicts ++ (verdict.map fun accepted => ⟨wasSent, accepted⟩).toList

/-- The conversation after one more call of the connection. -/
def call [Listener ℓ] (d : Conversation ℓ) : Connection.Action → Conversation ℓ
  | .authenticate account password privileges =>
    let (outcome, connection, server) :=
      d.connection.authenticate ServedConnection.peer account password privileges d.server
    { connection, server, verdicts := heard d.verdicts false (Connection.verdict? outcome) }
  | .send r =>
    let (outcome, connection, server) := d.connection.send ServedConnection.peer r d.server
    { connection, server, verdicts := heard d.verdicts true (sentVerdict? r outcome) }
  | .close =>
    let (connection, server) := d.connection.close ServedConnection.peer d.server
    { d with connection, server }

/-- What happens to a conversation. -/
inductive Event (ℓ : Type) where
  /-- The client calls the connection. -/
  | call (a : Connection.Action)
  /-- Others make of the server what they like. -/
  | meanwhile (v : Server ℓ)

/-- The conversation after one more event. -/
def step [Listener ℓ] (d : Conversation ℓ) : Event ℓ → Conversation ℓ
  | .call a => d.call a
  | .meanwhile v => { d with server := v }

/-- The conversation after some events. -/
def run [Listener ℓ] (d : Conversation ℓ) (es : List (Event ℓ)) : Conversation ℓ := es.foldl step d

end Conversation

/-- A session is logged in exactly if its last account was accepted. -/
theorem Session.isSome_authenticate (s : Session) (accounts : Accounts)
    (account password : String) (privileges : Privileges) :
    (s.authenticate accounts account password privileges).2.caller.isSome =
      (s.authenticate accounts account password privileges).1 := by
  unfold authenticate
  split <;> rfl

namespace Connection

variable [Listener ℓ] {c : Connection ServedConnection} {s : Session}

/-- A login closes the connection, or both ends know the verdict afterwards. -/
theorem authenticate_told (hstream : c.stream = some s.stream)
    (account password : String) (privileges : Privileges) (v : Server ℓ) :
    (c.authenticate ServedConnection.peer account password privileges v).2.1.isOpen = false ∨
      ∃ s' : Session,
        verdict? (c.authenticate ServedConnection.peer account password privileges v).1 =
          some s'.caller.isSome ∧
        (c.authenticate ServedConnection.peer account password privileges v).2.1 =
          { stream := some s'.stream, authenticated := s'.caller.isSome } := by
  by_cases hlength : (utf8 (Request.of (.operation
      (.validateAccount account password privileges))).encode).length ≤ maxLineLength
  · have htold := s.isSome_authenticate v.accounts account password
      (privileges ||| s.kind.privileges)
    rw [authenticate_session hstream hlength]
    refine .inr ⟨_, ?_, by rw [htold]⟩
    rw [htold]
    dsimp only
    split <;> rename_i hok
    · rw [hok]
      rfl
    · rw [Bool.eq_false_iff.mpr hok]
      rfl
  · rw [authenticate_long hstream (Nat.lt_of_not_le hlength)]
    exact .inl rfl

/-- To send a request leaves the login of the connection. The session stays as it is as
well, unless the request is a login of its own; then it knows the verdict. -/
theorem send_told (hstream : c.stream = some s.stream) (r : Request) (v : Server ℓ) :
    (c.send ServedConnection.peer r v).2.1.isOpen = false ∨
      (c.send ServedConnection.peer r v).2.1.authenticated = c.authenticated ∧
        ∃ s' : Session, (c.send ServedConnection.peer r v).2.1.stream = some s'.stream ∧
          (Conversation.sentVerdict? r (c.send ServedConnection.peer r v).1 =
              some s'.caller.isSome ∨
            Conversation.sentVerdict? r (c.send ServedConnection.peer r v).1 = none ∧ s' = s) := by
  have hopen : c.isOpen = true := by rw [isOpen, hstream, Option.isSome_some]
  cases hauth : c.authenticated with
  | false =>
    have hrefused : c.send ServedConnection.peer r v = (.error .notAuthenticated, c, v) := by
      unfold send
      rw [hopen, hauth]
      rfl
    rw [hrefused]
    exact .inr ⟨hauth, s, hstream, .inr ⟨rfl, rfl⟩⟩
  | true =>
    by_cases hbody : r.body = .quit
    · have hclosed : (c.send ServedConnection.peer r v).2.1 = { stream := none } := by
        unfold send
        rw [hopen, hauth, transmit_quit hstream hbody]
        simp only [if_pos hbody, Bool.not_true, Bool.false_eq_true, if_false]
      rw [hclosed]
      exact .inl rfl
    · rw [send_of_ready hopen hauth hbody]
      cases hlogin : Login.ofRequest? r with
      | some l =>
        by_cases hlength : (utf8 r.encode).length ≤ maxLineLength
        · rw [transmit_login hstream hlogin hlength]
          refine .inr ⟨hauth, _, rfl, .inl ?_⟩
          rw [Session.isSome_authenticate, Conversation.sentVerdict?, hlogin]
          rfl
        · rw [transmit_long hstream (Nat.lt_of_not_le hlength)]
          exact .inl rfl
      | none =>
        obtain hclosed | hstream' := transmit_other hstream hlogin hbody v
        · exact .inl (congrArg Option.isSome hclosed)
        · exact .inr ⟨(authenticated_transmit _ r c v).trans hauth, s, hstream',
            .inr ⟨Conversation.sentVerdict?_of_other hlogin _, rfl⟩⟩

end Connection

namespace Conversation

/-- What each end makes of the verdicts, while the connection is open. -/
structure Follows (d : Conversation ℓ) (s : Session) : Prop where
  /-- The connection leads to the session, and stands between two requests. -/
  stream : d.connection.stream = some s.stream
  /-- The session is logged in exactly if the last verdict accepted an account. -/
  session : s.caller.isSome = d.verdicts.getLast?.any (·.accepted)
  /-- If the connection takes itself for logged in, there was a verdict, and the last one
  accepted an account or was sent for. -/
  connection : d.connection.authenticated = true → ∃ w, d.verdicts.getLast? = some w ∧
    (w.accepted = true ∨ w.wasSent = true)

/-- An open connection leads to a session, and both ends follow the verdicts. -/
def Tracked (d : Conversation ℓ) : Prop := d.connection.isOpen = true → ∃ s, d.Follows s

/-- A verdict that was heard is the last one. -/
theorem getLast?_heard (verdicts : List Verdict) (wasSent accepted : Bool) :
    (heard verdicts wasSent (some accepted)).getLast? = some ⟨wasSent, accepted⟩ :=
  List.getLast?_concat

/-- Without a verdict there is nothing to hear. -/
theorem heard_none (verdicts : List Verdict) (wasSent : Bool) :
    heard verdicts wasSent none = verdicts := List.append_nil verdicts

/-- A new connection leads to a new session. -/
theorem tracked_begin (id : String) (kind : SocketKind) (address : SocketAddress)
    (v : Server ℓ) : (begin id kind address v).Tracked :=
  fun _ => ⟨{ id, kind, peer := address }, { stream := rfl, session := rfl, connection := nofun }⟩

/-- What the session holds of the login. -/
theorem Tracked.loggedIn_iff {d : Conversation ℓ} (hd : d.Tracked) :
    d.loggedIn = true ↔
      d.connection.isOpen = true ∧ d.verdicts.getLast?.any (·.accepted) = true := by
  cases hopen : d.connection.isOpen with
  | false =>
    have hstream : d.connection.stream = none := by simpa [Connection.isOpen] using hopen
    simp [loggedIn, hstream]
  | true =>
    obtain ⟨s, hs⟩ := hd hopen
    simp [loggedIn, hs.stream, Session.stream, ← hs.session]

/-- When the two ends agree. -/
theorem Tracked.agreed_iff {d : Conversation ℓ} (hd : d.Tracked) :
    d.Agreed ↔ (d.connection.authenticated = true →
      d.connection.isOpen = true ∧ d.verdicts.getLast? ≠ some ⟨true, false⟩) := by
  unfold Agreed
  rw [hd.loggedIn_iff]
  refine forall_congr' fun hauth => and_congr_right fun hopen => ?_
  obtain ⟨s, hs⟩ := hd hopen
  obtain ⟨w, hlast, hright⟩ := hs.connection hauth
  rw [hlast]
  constructor
  · rintro haccepted hrejected
    cases hrejected
    cases haccepted
  · intro hother
    obtain haccepted | hsent := hright
    · exact haccepted
    · -- A verdict that was sent for and is not a rejection is an acceptance.
      obtain ⟨wasSent, accepted⟩ := w
      cases hsent
      cases accepted with
      | true => rfl
      | false => exact absurd rfl hother

variable [Listener ℓ]

/-- Every call keeps track. -/
theorem Tracked.call {d : Conversation ℓ} (hd : d.Tracked) (a : Connection.Action) :
    (d.call a).Tracked := by
  intro hopen
  cases a with
  | authenticate account password privileges =>
    have hbefore := Connection.isOpen_of_authenticate ServedConnection.peer account password
      privileges d.connection d.server hopen
    obtain ⟨s, hs⟩ := hd hbefore
    obtain hclosed | ⟨s', hverdict, hconnection⟩ :=
      Connection.authenticate_told hs.stream account password privileges d.server
    · exact absurd hopen (Bool.eq_false_iff.mp hclosed)
    · -- Both ends hear the same verdict, so that the flag is that of the session.
      have hlast : (d.call (.authenticate account password privileges)).verdicts.getLast? =
          some ⟨false, s'.caller.isSome⟩ := by
        simp only [Conversation.call, hverdict, getLast?_heard]
      refine ⟨s', congrArg Connection.stream hconnection, ?_, fun hauth => ⟨_, hlast, .inl ?_⟩⟩
      · rw [hlast]
        rfl
      · exact (congrArg Connection.authenticated hconnection).symm.trans hauth
  | send r =>
    have hbefore := (Connection.isOpen_of_send ServedConnection.peer r d.connection d.server
      hopen).1
    obtain ⟨s, hs⟩ := hd hbefore
    obtain hclosed | ⟨hauth, s', hstream', hverdict | ⟨hverdict, rfl⟩⟩ :=
      Connection.send_told hs.stream r d.server
    · exact absurd hopen (Bool.eq_false_iff.mp hclosed)
    · -- Only the session hears this one.
      have hlast : (d.call (.send r)).verdicts.getLast? = some ⟨true, s'.caller.isSome⟩ := by
        simp only [Conversation.call, hverdict, getLast?_heard]
      refine ⟨s', hstream', ?_, fun _ => ⟨_, hlast, .inr rfl⟩⟩
      rw [hlast]
      rfl
    · have hlast : (d.call (.send r)).verdicts = d.verdicts := by
        simp only [Conversation.call, hverdict, heard_none]
      refine ⟨s', hstream', ?_, fun hflag => ?_⟩
      · rw [hlast]
        exact hs.session
      · rw [hlast]
        exact hs.connection (hauth.symm.trans hflag)
  | close =>
    have hclosed := Connection.isOpen_close ServedConnection.peer d.connection d.server
    exact absurd hopen (Bool.eq_false_iff.mp hclosed)

/-- So does whatever others make of the server. -/
theorem Tracked.meanwhile {d : Conversation ℓ} (hd : d.Tracked) (v : Server ℓ) :
    (d.step (.meanwhile v)).Tracked := by
  intro hopen
  obtain ⟨s, hs⟩ := hd hopen
  exact ⟨s, hs.stream, hs.session, hs.connection⟩

/-- So do all events. -/
theorem Tracked.run {d : Conversation ℓ} (hd : d.Tracked) (es : List (Event ℓ)) :
    (d.run es).Tracked := by
  induction es generalizing d with
  | nil => exact hd
  | cons e es ih =>
    cases e with
    | call a => exact ih (hd.call a)
    | meanwhile v => exact ih (hd.meanwhile v)

end Conversation

/-- After any calls on a connection to a new session, whatever others make of the server
in the meantime, the session is logged in exactly if the connection is open and the last
verdict of the server accepted an account. A connection that takes itself for logged in
is right exactly if it is open and the last verdict was no rejection of an account that
was sent as a request. -/
theorem Conversation.login_agreement [Listener ℓ] (id : String) (kind : SocketKind)
    (address : SocketAddress) (v : Server ℓ) (es : List (Event ℓ)) :
    let d := (begin id kind address v).run es
    (d.loggedIn = true ↔
      d.connection.isOpen = true ∧ d.verdicts.getLast?.any (·.accepted) = true) ∧
    (d.Agreed ↔ (d.connection.authenticated = true →
      d.connection.isOpen = true ∧ d.verdicts.getLast? ≠ some ⟨true, false⟩)) := by
  intro d
  have hd : d.Tracked := (tracked_begin id kind address v).run es
  exact ⟨hd.loggedIn_iff, hd.agreed_iff⟩

namespace Conversation

/-- A server that knows one account. -/
def library : Server ExitSignal :=
  .of { accounts := Table.empty.insert "reader" ⟨"pw", .access⟩ }

/-- A login, and then a request that asks about another password. -/
def secondThought : List (Event ExitSignal) :=
  [.call (.authenticate "reader" "pw" .access),
    .call (.send (.of (.operation (.validateAccount "reader" "wrong" .access))))]

/-- To ask about another password logs the session out, and the connection does not
notice. -/
theorem login_disagreement :
    ¬ ∀ (v : Server ExitSignal) (es : List (Event ExitSignal)),
      ((begin "1" .service (.loopback 0) v).run es).Agreed := by
  intro hall
  have hagreed := hall library secondThought
  revert hagreed
  decide +kernel

end Conversation

end RatingServer
