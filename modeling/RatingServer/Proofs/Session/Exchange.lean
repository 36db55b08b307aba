import RatingServer.Proofs.Request.Lines
import RatingServer.Proofs.Session.Replies
import RatingServer.Proofs.Session.Steps

/-!
# Exchanges with a session

A request that is written to a session of a server gets the reply of the session to
the line of the request. If the line is too long, it gets none, and the session is
over. A request that reads back gets the answer of the session, if that can be sent.
Logins read back always, and so does the request to end the session; what is read from
the line of any other request is neither of the two.
-/

namespace RatingServer

open Wire Json

/-- Only the request to end the session is written with the first action. -/
theorem Body.quit_iff (b : Body) : b = .quit ↔ b.written.1 = 0 := by
  cases b with
  | quit => exact ⟨fun _ => rfl, fun _ => rfl⟩
  | control c account password => exact ⟨nofun, nofun⟩
  | sessionAttribute name => exact ⟨nofun, nofun⟩
  | operation op =>
    refine ⟨nofun, fun h => ?_⟩
    cases op <;> first | cases h | (cases ‹Side› <;> cases h)

/-- Only logins are written with the action to validate an account. -/
theorem Login.isSome_iff (r : Request) :
    (Login.ofRequest? r).isSome = true ↔ r.body.written.1 = 44 := by
  obtain ⟨body, binary⟩ := r
  cases body with
  | quit => exact ⟨nofun, nofun⟩
  | control c account password => exact ⟨nofun, nofun⟩
  | sessionAttribute name => exact ⟨nofun, nofun⟩
  | operation op =>
    cases op with
    | validateAccount account password privileges => exact ⟨fun _ => rfl, fun _ => rfl⟩
    | _ =>
      refine ⟨nofun, fun h => ?_⟩
      first
      | cases h
      | cases ‹Side› <;> cases h

namespace Request

/-- The request for something asks for it. -/
theorem of_body (b : Body) : (Request.of b).body = b := by
  unfold Request.of
  split <;> rfl

/-- The line of a request is not blank. -/
theorem trim_encode (r : Request) : Text.trim r.encode.toList ≠ [] := by
  obtain ⟨c, cs, d, hchars, -, -⟩ := chars_marked (j := r.toJson) rfl
  rw [toList_encode, trim_chars rfl, hchars]
  simp

/-- What is read from the line of a request is a login only if the request is one. -/
theorem ofRequest?_decode {r r' : Request} (h : decode r.encode = .ok r')
    (hlogin : Login.ofRequest? r = none) : Login.ofRequest? r' = none := by
  have hplace := (decode_encode_ok h).1
  rw [← Option.not_isSome_iff_eq_none, Login.isSome_iff] at hlogin ⊢
  rwa [hplace]

/-- What is read from the line of a request ends the session only if the request does. -/
theorem body_decode_ne {r r' : Request} (h : decode r.encode = .ok r')
    (hbody : r.body ≠ .quit) : r'.body ≠ .quit := by
  rw [ne_eq, Body.quit_iff] at hbody ⊢
  rwa [(decode_encode_ok h).1]

/-- A login carries no floating-point number. -/
theorem not_carries_login {r : Request} {l : Login} (h : Login.ofRequest? r = some l) (x : Double) :
    ¬ r.Carries x := by
  obtain ⟨body, binary⟩ := r
  unfold Login.ofRequest? at h
  split at h
  · rename_i account password asked hbody
    cases hbody
    rw [carries_iff]
    rintro ⟨m, hm, hx⟩
    change m ∈ [_, _, _] at hm
    simp only [List.mem_cons, List.not_mem_nil, or_false] at hm
    rcases hm with rfl | rfl | rfl
    · cases hx
    · cases hx
    · exact Legible.not_holds_int hx
  · cases h

/-- The request to end the session carries no floating-point number. -/
theorem not_carries_quit {r : Request} (h : r.body = .quit) (x : Double) : ¬ r.Carries x := by
  rw [carries_iff, h]
  rintro ⟨m, hm, -⟩
  cases hm

end Request

/-- On an open connection that is logged in, a request that does not end the session is
transmitted. -/
theorem Connection.send_of_ready {π σ : Type} {peer : Peer π σ} {r : Request} {c : Connection π}
    {s : σ} (hopen : c.isOpen = true) (hlogin : c.authenticated = true) (hbody : r.body ≠ .quit) :
    c.send peer r s = c.transmit peer r s := by
  unfold send
  simp only [hopen, hlogin, Bool.not_true, Bool.false_eq_true, if_false, if_neg hbody]
  rcases c.transmit peer r s with ⟨response, c', s'⟩
  cases response <;> rfl

/-- A response can be sent in both ways whose numbers read back if its line and its frame
are below the limits. -/
theorem Response.sendable_of_short {r : Response} (hback : ∀ x, r.Carries x → ReadsBack x)
    (hline : (utf8 r.encode).length < maxLineLength)
    (hframe : (format.put r).length ≤ maxFrameLength) (binary : Bool) : r.Sendable binary := by
  cases binary with
  | true => exact hframe
  | false => exact ⟨hline, hback⟩

/-- A truth value can be sent. -/
theorem Response.sendable_flag (ok binary : Bool) : (Response.result .flag ok).Sendable binary := by
  cases ok <;> exact sendable_of_short (fun _ hx => by cases hx) (by decide) (by decide) binary

/-- That there is nothing to tell can be sent. -/
theorem Response.sendable_empty (binary : Bool) : Response.empty.Sendable binary :=
  sendable_of_short (fun _ hx => by cases hx) (by decide) (by decide) binary

/-- That something is not allowed can be sent. -/
theorem Response.sendable_denied (binary : Bool) :
    (Response.failure .permissionDenied).Sendable binary :=
  sendable_of_short (fun _ hx => by cases hx) (by decide) (by decide) binary

/-- Why a server rejects a change of its state can be sent. -/
theorem Response.sendable_lifecycle (e : LifecycleError) (binary : Bool) :
    (Response.failure (.lifecycle e)).Sendable binary := by
  cases e <;> exact sendable_of_short (fun _ hx => by cases hx) (by decide) (by decide) binary

namespace Session

variable {ℓ : Type} [Listener ℓ]

/-- A stream to a session, between two requests. -/
def stream (s : Session) : Stream ServedConnection := { peer := some { session := s } }

/-- A line that is read as a request is answered with the answer to the request. -/
theorem handleLine_of_decode {line : String} {r : Request} (h : Request.decode line = .ok r)
    (s : Session) (v : Server ℓ) :
    s.handleLine v line =
      (.of (s.answer v r).1 r.binary (r.body = .quit), (s.answer v r).2) := by
  unfold handleLine
  rw [h]

/-- What is told of a line that is not read as a request. -/
def faultTold (f : DecodeFault) : Response :=
  .failure (.invalidRequest (CallError.couldNotDecode f).message)

/-- A line that is not read as a request is answered with the line that tells so. -/
theorem handleLine_of_fault {line : String} {f : DecodeFault}
    (h : Request.decode line = .error f) (s : Session) (v : Server ℓ) :
    s.handleLine v line = (.of (faultTold f) false false, s, v) := by
  unfold handleLine
  rw [h]
  rfl

/-- The stream to a session after a reply, before the reply is read. -/
def streamAfter (s : Session) (reply : Reply) : Stream ServedConnection where
  peer := if reply.close then none else some { session := s }
  incoming := reply.bytes

/-- A request whose line is short enough gets the reply of the session to the line. -/
theorem exchange_line {s s' : Session} {v v' : Server ℓ} {r : Request} {reply : Reply}
    (hlength : (utf8 r.encode).length ≤ maxLineLength)
    (hline : s.handleLine v r.encode = (reply, s', v')) :
    s.stream.exchange ServedConnection.peer r v =
      (((s'.streamAfter reply).readResponse r.binary).1,
        ((s'.streamAfter reply).readResponse r.binary).2, v') := by
  unfold Stream.exchange Stream.write ServedConnection.peer stream
  dsimp only
  rw [ServedConnection.receive_line s v r.encode_not_low r.trim_encode hlength, hline]
  dsimp only
  rw [List.nil_append]
  rfl

/-- A request whose line is too long gets no reply. -/
theorem exchange_long (s : Session) (v : Server ℓ) {r : Request}
    (hlength : maxLineLength < (utf8 r.encode).length) :
    s.stream.exchange ServedConnection.peer r v =
      (.error (if r.binary then .couldNotReceive else .closedByPeer), { peer := none }, v) := by
  unfold Stream.exchange Stream.write ServedConnection.peer stream
  dsimp only
  rw [ServedConnection.receive_long s v r.encode_not_low hlength]
  cases r.binary <;> rfl

/-- A request that reads back gets the answer of the session, if it can be sent. -/
theorem exchange_answer {s s' : Session} {v v' : Server ℓ} {r : Request} {response : Response}
    (hback : ∀ x, r.Carries x → ReadsBack x) (hlength : (utf8 r.encode).length ≤ maxLineLength)
    (hanswer : s.answer v r = (response, s', v')) (hsend : response.Sendable r.binary) :
    s.stream.exchange ServedConnection.peer r v =
      (.ok response.reset,
        { peer := if r.body = .quit then none else some { session := s' } }, v') := by
  obtain ⟨hclose, hread⟩ := Stream.readResponse_reply hsend (decide (r.body = .quit))
    (if r.body = .quit then none else some ({ session := s' } : ServedConnection)) []
  rw [List.append_nil] at hread
  have hline := handleLine_of_decode (Request.decode_encode hback) s v
  rw [hanswer] at hline
  rw [exchange_line hlength hline, streamAfter]
  simp only [hclose, decide_eq_true_eq, hread]

/-- A login is answered with what becomes of it. -/
theorem exchange_login {s : Session} {r : Request} {l : Login}
    (hlogin : Login.ofRequest? r = some l) (hlength : (utf8 r.encode).length ≤ maxLineLength)
    (v : Server ℓ) :
    s.stream.exchange ServedConnection.peer r v =
      let (ok, s') := s.authenticate v.accounts l.account l.password (l.asked ||| s.kind.privileges)
      (.ok (.result .flag ok), s'.stream, v) := by
  have hbody : r.body ≠ .quit := by
    intro hquit
    rw [Login.ofRequest?, hquit] at hlogin
    cases hlogin
  have hexchange := exchange_answer (fun x hx => absurd hx (Request.not_carries_login hlogin x))
    hlength (answer_login hlogin (s := s) (v := v)) (Response.sendable_flag _ _)
  rw [if_neg hbody] at hexchange
  exact hexchange

/-- The request to end the session is answered with nothing, and the session is over. -/
theorem exchange_quit {r : Request} (hbody : r.body = .quit) (s : Session) (v : Server ℓ) :
    s.stream.exchange ServedConnection.peer r v = (.ok .empty, { peer := none }, v) := by
  have hlength : (utf8 r.encode).length ≤ maxLineLength := by
    obtain ⟨_, binary⟩ := r
    cases hbody
    cases binary <;> decide
  have hanswer : s.answer v r = (.empty, s, v) := by rw [answer, hbody]
  have hexchange := exchange_answer (fun x hx => absurd hx (Request.not_carries_quit hbody x))
    hlength hanswer (Response.sendable_empty _)
  rw [if_pos hbody] at hexchange
  exact hexchange

/-- Any other request leaves the session as it is, and the stream between two requests
if the next reply can be told at all. -/
theorem exchange_other {s : Session} {v : Server ℓ} {r : Request}
    (hlogin : Login.ofRequest? r = none) (hbody : r.body ≠ .quit)
    (h : Connection.inStep r.binary (s.stream.exchange ServedConnection.peer r v).1 = true) :
    (s.stream.exchange ServedConnection.peer r v).2.1 = s.stream := by
  by_cases hlength : (utf8 r.encode).length ≤ maxLineLength
  · cases hread : Request.decode r.encode with
    | error f =>
      obtain ⟨told, hline⟩ : ∃ told, s.handleLine v r.encode = (.of told false false, s, v) :=
        ⟨_, handleLine_of_fault hread s v⟩
      rw [exchange_line hlength hline] at h ⊢
      cases hbinary : r.binary with
      | true =>
        -- The reply is a line, for the wish for a frame was not read either.
        rw [hbinary, streamAfter, Stream.readResponse_line] at h
        cases h
      | false =>
        rw [hbinary, streamAfter] at h
        obtain ⟨hclose, hstream⟩ := Stream.readResponse_any _ _ _ _ h
        rw [streamAfter, hstream, hclose]
        rfl
    | ok r' =>
      have hline := handleLine_of_decode hread s v
      have hkept := answer_session (s := s) (v := v) (Request.ofRequest?_decode hread hlogin)
      rw [(Request.decode_encode_ok hread).2,
        decide_eq_false (Request.body_decode_ne hread hbody)] at hline
      rw [exchange_line hlength hline, streamAfter] at h ⊢
      obtain ⟨hclose, hstream⟩ := Stream.readResponse_any _ _ _ _ h
      rw [hstream, hclose, hkept]
      rfl
  · rw [exchange_long s v (Nat.lt_of_not_le hlength)] at h
    cases hbinary : r.binary <;> rw [hbinary] at h <;> cases h

end Session

namespace Connection

variable {ℓ : Type} [Listener ℓ] {c : Connection ServedConnection} {s : Session} {r : Request}

/-- A login that is transmitted is answered with what becomes of it. -/
theorem transmit_login {l : Login} (hstream : c.stream = some s.stream)
    (hlogin : Login.ofRequest? r = some l) (hlength : (utf8 r.encode).length ≤ maxLineLength)
    (v : Server ℓ) :
    c.transmit ServedConnection.peer r v =
      let (ok, s') := s.authenticate v.accounts l.account l.password (l.asked ||| s.kind.privileges)
      (.ok (.result .flag ok), { c with stream := some s'.stream }, v) := by
  unfold transmit
  rw [hstream]
  dsimp only
  rw [Session.exchange_login hlogin hlength]
  rfl

/-- A request that is too long closes the connection. -/
theorem transmit_long (hstream : c.stream = some s.stream)
    (hlength : maxLineLength < (utf8 r.encode).length) (v : Server ℓ) :
    c.transmit ServedConnection.peer r v =
      (.error (if r.binary then .couldNotReceive else .closedByPeer), { c with stream := none },
        v) := by
  unfold transmit
  rw [hstream]
  dsimp only
  rw [Session.exchange_long s v hlength]
  cases r.binary <;> rfl

/-- The request to end the session is answered, and nobody is left at the other end. -/
theorem transmit_quit (hstream : c.stream = some s.stream) (hbody : r.body = .quit)
    (v : Server ℓ) : c.transmit ServedConnection.peer r v =
      (.ok .empty, { c with stream := some { peer := none } }, v) := by
  unfold transmit
  rw [hstream]
  dsimp only
  rw [Session.exchange_quit hbody]
  rfl

/-- Any other request that is transmitted closes the connection, or leaves the session as
it is. -/
theorem transmit_other (hstream : c.stream = some s.stream) (hlogin : Login.ofRequest? r = none)
    (hbody : r.body ≠ .quit) (v : Server ℓ) :
    (c.transmit ServedConnection.peer r v).2.1.stream = none ∨
      (c.transmit ServedConnection.peer r v).2.1.stream = some s.stream := by
  unfold transmit
  rw [hstream]
  dsimp only
  split
  · rename_i hstep
    have hkept := Session.exchange_other (s := s) (v := v) hlogin hbody hstep
    rw [hkept]
    exact .inr rfl
  · exact .inl rfl

/-- Both ends know how a login ends that is transmitted. -/
theorem authenticate_session {account password : String} {privileges : Privileges}
    (hstream : c.stream = some s.stream)
    (hlength : (utf8 (Request.of (.operation
      (.validateAccount account password privileges))).encode).length ≤ maxLineLength)
    (v : Server ℓ) :
    c.authenticate ServedConnection.peer account password privileges v =
      let (ok, s') := s.authenticate v.accounts account password (privileges ||| s.kind.privileges)
      (if ok then .ok () else .error (.accountRejected account),
        { stream := some s'.stream, authenticated := ok }, v) := by
  have htransmit := transmit_login hstream
    (l := ⟨account, password, privileges⟩) rfl hlength v
  unfold authenticate
  dsimp only
  rw [htransmit]
  dsimp only
  cases (s.authenticate v.accounts account password (privileges ||| s.kind.privileges)).1 <;> rfl

/-- A login that is too long closes the connection. -/
theorem authenticate_long {account password : String} {privileges : Privileges}
    (hstream : c.stream = some s.stream)
    (hlength : maxLineLength < (utf8 (Request.of (.operation
      (.validateAccount account password privileges))).encode).length) (v : Server ℓ) :
    c.authenticate ServedConnection.peer account password privileges v =
      (.error .closedByPeer, { c with stream := none }, v) := by
  unfold authenticate
  dsimp only
  rw [transmit_long hstream hlength]
  rfl

end Connection

end RatingServer
