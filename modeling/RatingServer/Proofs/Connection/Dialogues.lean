import RatingServer.Connection
import RatingServer.Proofs.Connection.Transmissions
import RatingServer.Proofs.Connection.WholeReplies

/-!
# Dialogues over a connection

The calls of a connection, one after another, over a link that may fail at any write and
to another end that may answer anything. A connection that was closed stays closed and
transmits nothing. It is closed when a request could not be sent, when its reply could not
be received, and when a frame could not be read. As long as every request is answered with
one whole reply, every call learns what its own reply says, also after lines that made no
sense: before each request nothing is left of the replies before it.
-/

namespace RatingServer

open Wire

variable {π σ : Type}

namespace Connection

/-- What a call of a connection answers. -/
inductive Outcome where
  /-- How a login ended. -/
  | login (result : Except CallError Unit)
  /-- What became of a request. -/
  | reply (result : Except CallError Response)
  /-- The connection is closed. -/
  | closed

/-- The error that a call answers, if it does. -/
def Outcome.error? : Outcome → Option CallError
  | .login (.error e) | .reply (.error e) => some e
  | _ => none

/-- What a call answers when this is what became of its request. -/
def Action.outcome : Action → Except CallError Response → Outcome
  | authenticate account _ _, said =>
    .login (match said.bind (·.toAnswer .flag) with
      | .ok true => .ok ()
      | .ok false => .error (.accountRejected account)
      | .error e => .error e)
  | send _, said => .reply said
  | close, _ => .closed

/-- The connection after a call for whose request this is what became of it. -/
def settle (c : Connection π) : Action → Except CallError Response → Connection π
  | .authenticate .., said =>
    match said.bind (·.toAnswer .flag) with
    | .ok accepted => { c with authenticated := accepted }
    | .error _ => c
  | .send _, .error _ => c
  | .send r, .ok _ => if r.body = .quit then { stream := none } else c
  | .close, _ => { stream := none }

/-- The calls that transmit their request. -/
def transmits (c : Connection π) (a : Action) : Bool := c.isOpen && (a.isLogin || c.authenticated)

/-- Why a call does not transmit its request. -/
def refusal (c : Connection π) : CallError := if c.isOpen then .notAuthenticated else .notConnected

/-- Carries out a call over a link. -/
def perform (link : Link π σ) (a : Action) (c : Connection π) (s : σ) :
    Outcome × Connection π × σ :=
  if c.transmits a then
    let (said, c, s) := c.transmitOver link a.request s
    (a.outcome said, c.settle a said, s)
  else (a.outcome (.error c.refusal), c.settle a (.error c.refusal), s)

/-- Carries out a call with a peer. -/
def call (peer : Peer π σ) (a : Action) (c : Connection π) (s : σ) : Outcome × Connection π × σ :=
  match a with
  | .authenticate account password privileges =>
    let (result, c, s) := c.authenticate peer account password privileges s
    (.login result, c, s)
  | .send r =>
    let (result, c, s) := c.send peer r s
    (.reply result, c, s)
  | .close =>
    let (c, s) := c.close peer s
    (.closed, c, s)

/-- On a closed connection nothing is transmitted. -/
theorem transmits_of_closed {c : Connection π} (h : c.isOpen = false) (a : Action) :
    c.transmits a = false := by
  rw [transmits, h, Bool.false_and]

section Call

variable (peer : Peer π σ) (c : Connection π) (s : σ)

/-- A call that transmits its request is settled by what became of it. -/
theorem call_of_transmits {a : Action} (h : c.transmits a = true) :
    c.call peer a s =
      let (said, c, s) := c.transmit peer a.request s
      (a.outcome said, c.settle a said, s) := by
  rw [transmits, Bool.and_eq_true] at h
  obtain ⟨hopen, hallowed⟩ := h
  cases a with
  | authenticate account password privileges =>
    simp only [call, authenticate, Action.request]
    rcases c.transmit peer _ s with ⟨said, c', s'⟩
    simp only [Action.outcome, settle]
    rcases said.bind (·.toAnswer .flag) with e | accepted
    · rfl
    · cases accepted <;> rfl
  | send r =>
    have hauth : c.authenticated = true := by simpa [Action.isLogin] using hallowed
    simp only [call, send, hopen, hauth, Bool.not_true, Bool.false_eq_true, if_false,
      Action.request]
    rcases c.transmit peer r s with ⟨said, c', s'⟩
    cases said <;> rfl
  | close =>
    have hauth : c.authenticated = true := by simpa [Action.isLogin] using hallowed
    simp only [call, close, hopen, hauth, Bool.and_true, if_true, Action.request]
    rfl

/-- A call that does not transmit its request is refused. -/
theorem call_of_not_transmits {a : Action} (h : c.transmits a = false) :
    c.call peer a s = (a.outcome (.error c.refusal), c.settle a (.error c.refusal), s) := by
  cases a with
  | authenticate account password privileges =>
    have hopen : c.isOpen = false := by simpa [transmits, Action.isLogin] using h
    have hstream : c.stream = none := by simpa [isOpen] using hopen
    simp only [call, authenticate, transmit, hstream, refusal, hopen]
    rfl
  | send r =>
    cases hopen : c.isOpen with
    | false => simp [call, send, refusal, hopen, Action.outcome, settle]
    | true =>
      have hauth : c.authenticated = false := by
        simpa [transmits, Action.isLogin, hopen] using h
      simp [call, send, refusal, hopen, hauth, Action.outcome, settle]
  | close =>
    have hfarewell : (c.authenticated && c.isOpen) = false := by
      simpa [transmits, Action.isLogin, Bool.and_comm] using h
    simp only [call, close, hfarewell, Bool.false_eq_true, if_false, Action.outcome, settle]

/-- A call with a peer is the call over the link to it. -/
theorem perform_ofPeer (a : Action) : c.perform (.ofPeer peer) a s = c.call peer a s := by
  unfold perform
  cases h : c.transmits a with
  | true => rw [if_pos rfl, call_of_transmits peer c s h, transmit_eq]
  | false => rw [if_neg Bool.false_ne_true, call_of_not_transmits peer c s h]

end Call

/-- The error tells that a request was not sent, that its reply was not received, or that
a frame could not be read. -/
def LosesStep (binary : Bool) (e : CallError) : Prop :=
  e.kind = "CouldNotSend" ∨ e.kind = "CouldNotReceive" ∨
    (e.kind = "CouldNotDecode" ∧ binary = true)

/-- After such an error nobody knows where the next reply begins. -/
theorem inStep_of_losesStep {binary : Bool} {e : CallError} (h : LosesStep binary e) :
    inStep binary (.error e) = false := by
  cases e with
  | couldNotDecode fault =>
    have hbinary : binary = true := by simpa [LosesStep, CallError.kind] using h
    rw [hbinary]
    rfl
  | _ => rfl

/-- That a call was refused is no such error. -/
theorem not_losesStep_refusal (binary : Bool) (c : Connection π) :
    ¬ LosesStep binary c.refusal := by
  unfold refusal
  split <;> simp [LosesStep, CallError.kind]

/-- Nor is what a reply says that holds no truth value. -/
theorem not_losesStep_toAnswer {r : Response} {e : CallError} (h : r.toAnswer .flag = .error e)
    (binary : Bool) : ¬ LosesStep binary e := by
  unfold Response.toAnswer Response.expect at h
  cases r with
  | empty => cases h
  | result kind value =>
    dsimp only at h
    split at h
    · cases h
    · cases h
      simp [LosesStep, CallError.kind]
  | failure f =>
    cases h
    cases f <;> simp [LosesStep, CallError.ofFailure, CallError.kind]

/-- A call answers such an error only if that is what became of its request. -/
theorem eq_error_of_outcome {a : Action} {said : Except CallError Response} {e : CallError}
    {binary : Bool} (h : (a.outcome said).error? = some e) (hlost : LosesStep binary e) :
    said = .error e := by
  cases a with
  | authenticate account password privileges =>
    cases hanswer : said.bind (·.toAnswer .flag) with
    | ok accepted =>
      cases accepted with
      | true => simp [Action.outcome, hanswer, Outcome.error?] at h
      | false =>
        have he : CallError.accountRejected account = e := by
          simpa [Action.outcome, hanswer, Outcome.error?] using h
        simp [← he, LosesStep, CallError.kind] at hlost
    | error e' =>
      have he : e' = e := by simpa [Action.outcome, hanswer, Outcome.error?] using h
      subst he
      cases said with
      | error e => rw [Except.error.inj hanswer]
      | ok r => exact absurd hlost (not_losesStep_toAnswer hanswer binary)
  | send r =>
    cases said with
    | error e' => simpa [Action.outcome, Outcome.error?] using h
    | ok r => cases h
  | close => cases h

/-- What is settled keeps the stream of an exchange or gives it up. -/
theorem stream_settle {c : Connection π} {a : Action} {said : Except CallError Response}
    {st : Stream π} (h : (c.settle a said).stream = some st) : c.stream = some st := by
  cases a with
  | authenticate account password privileges =>
    simp only [settle] at h
    split at h <;> exact h
  | send r =>
    cases said with
    | error e => exact h
    | ok response =>
      simp only [settle] at h
      split at h
      · cases h
      · exact h
  | close => cases h

/-- Unless a call ends the session, what is settled keeps the stream of an exchange. -/
theorem stream_settle_of_ne {a : Action} (h : a.request.body ≠ .quit) (c : Connection π)
    (said : Except CallError Response) : (c.settle a said).stream = c.stream := by
  cases a with
  | authenticate account password privileges =>
    simp only [settle]
    split <;> rfl
  | send r =>
    cases said with
    | error e => rfl
    | ok response =>
      have hbody : r.body ≠ .quit := h
      simp only [settle, if_neg hbody]
  | close => exact absurd rfl h

/-- A connection that was closed stays so. -/
theorem isOpen_settle {c : Connection π} (h : c.isOpen = false) (a : Action)
    (said : Except CallError Response) : (c.settle a said).isOpen = false := by
  cases hstream : (c.settle a said).stream with
  | none => rw [isOpen, hstream, Option.isSome_none]
  | some st =>
    rw [isOpen, stream_settle hstream] at h
    cases h

variable {link : Link π σ}

/-- On a closed connection a call is refused and transmits nothing. -/
theorem perform_of_closed {c : Connection π} (h : c.isOpen = false) (a : Action) (s : σ) :
    (c.perform link a s).1 = a.outcome (.error .notConnected) ∧
      (c.perform link a s).2.1.isOpen = false ∧ (c.perform link a s).2.2 = s := by
  have hrefusal : c.refusal = .notConnected := by simp [refusal, h]
  unfold perform
  rw [transmits_of_closed h, if_neg Bool.false_ne_true, hrefusal]
  exact ⟨rfl, isOpen_settle h a _, rfl⟩

/-- Only a reply that keeps the reader in step keeps the connection. -/
theorem isOpen_transmitOver {r : Request} {c : Connection π} {s : σ}
    (h : inStep r.binary (c.transmitOver link r s).1 = false) :
    (c.transmitOver link r s).2.1.isOpen = false := by
  unfold transmitOver at h ⊢
  split at h
  · next hstream => simp [isOpen, hstream]
  · split at h
    · rfl
    · dsimp only at h ⊢
      rw [h]
      rfl

/-- A call that could not send its request, receive its reply or read its frame closes the
connection. -/
theorem perform_of_losesStep {a : Action} {c : Connection π} {s : σ} {e : CallError}
    (h : (c.perform link a s).1.error? = some e) (hlost : LosesStep a.request.binary e) :
    (c.perform link a s).2.1.isOpen = false := by
  cases htransmits : c.transmits a with
  | true =>
    simp only [perform, htransmits, if_true] at h ⊢
    have hsaid := eq_error_of_outcome h hlost
    refine isOpen_settle (isOpen_transmitOver ?_) a _
    rw [hsaid]
    exact inStep_of_losesStep hlost
  | false =>
    simp only [perform, htransmits, Bool.false_eq_true, if_false] at h
    have hrefused := eq_error_of_outcome h hlost
    rw [← Except.error.inj hrefused] at hlost
    exact absurd hlost (not_losesStep_refusal _ c)

/-- What arrives when a call writes its request; nothing if that fails. -/
def arrived (link : Link π σ) (a : Action) (c : Connection π) (s : σ) : Option Bytes :=
  c.stream.bind fun st => (link (utf8 (a.request.encode ++ "\n")) st.peer s).1.map Prod.fst

/-- A call whose request could not be written says so and closes the connection. -/
theorem perform_of_not_arrived {a : Action} {c : Connection π} {s : σ}
    (htransmits : c.transmits a = true) (h : c.arrived link a s = none) :
    (c.perform link a s).1 = a.outcome (.error .couldNotSend) ∧
      (c.perform link a s).2.1.isOpen = false := by
  have hopen : c.isOpen = true := (Bool.and_eq_true _ _ ▸ htransmits).1
  obtain ⟨st, hstream⟩ := Option.isSome_iff_exists.mp hopen
  have hfailed : (link (utf8 (a.request.encode ++ "\n")) st.peer s).1 = none := by
    simpa [arrived, hstream] using h
  have hexchange : c.transmitOver link a.request s = (.error .couldNotSend,
      { c with stream := none }, (link (utf8 (a.request.encode ++ "\n")) st.peer s).2) := by
    unfold transmitOver
    rw [hstream]
    dsimp only
    rcases hlink : link (utf8 (a.request.encode ++ "\n")) st.peer s with ⟨came, s'⟩
    rw [hlink] at hfailed
    cases hfailed
    rfl
  unfold perform
  rw [if_pos htransmits, hexchange]
  exact ⟨rfl, isOpen_settle rfl a _⟩

/-- A request that gets a whole reply when nothing was left to read: the reply says what
becomes of the request, and afterwards nothing is left to read again. -/
theorem transmitOver_whole {r : Request} {c : Connection π} {s : σ} {st : Stream π}
    {bytes : Bytes} {said : Except CallError Response} (hstream : c.stream = some st)
    (hclean : st.incoming = [])
    (harrived : (link (utf8 (r.encode ++ "\n")) st.peer s).1.map Prod.fst = some bytes)
    (hwhole : WholeReply r.binary bytes said) :
    (c.transmitOver link r s).1 = said ∧
      (inStep r.binary said = false → (c.transmitOver link r s).2.1.stream = none) ∧
      (inStep r.binary said = true →
        ∃ peer, (c.transmitOver link r s).2.1.stream = some { peer }) := by
  obtain ⟨⟨came, peer⟩, hcame, rfl⟩ := Option.map_eq_some_iff.mp harrived
  obtain ⟨hsaid, hleft⟩ := hwhole.readResponse peer []
  rw [List.append_nil] at hsaid hleft
  rcases hlink : link (utf8 (r.encode ++ "\n")) st.peer s with ⟨outcome, s'⟩
  rw [hlink] at hcame
  cases hcame
  have hexchange : c.transmitOver link r s = (said, { c with
      stream := if inStep r.binary said then
        some (Stream.readResponse r.binary { peer, incoming := came }).2 else none }, s') := by
    unfold transmitOver
    rw [hstream]
    dsimp only
    rw [hlink]
    dsimp only
    rw [hclean, List.nil_append, hsaid]
  rw [hexchange]
  refine ⟨rfl, fun hlost => ?_, fun hstep => ⟨peer, ?_⟩⟩
  · rw [hlost]
    rfl
  · rw [hstep, hleft hstep]
    rfl

/-- A call whose request gets a whole reply when nothing was left to read answers what the
reply says, and leaves nothing to read. Unless it ends the session, it keeps the connection
exactly if the reply keeps the reader in step. -/
theorem perform_whole {a : Action} {c : Connection π} {s : σ} {st : Stream π} {bytes : Bytes}
    {said : Except CallError Response} (htransmits : c.transmits a = true)
    (hstream : c.stream = some st) (hclean : st.incoming = [])
    (harrived : c.arrived link a s = some bytes) (hwhole : WholeReply a.request.binary bytes said) :
    (c.perform link a s).1 = a.outcome said ∧
      (∀ st', (c.perform link a s).2.1.stream = some st' → st'.incoming = []) ∧
      (a.request.body ≠ .quit →
        (c.perform link a s).2.1.isOpen = inStep a.request.binary said) := by
  rw [arrived, hstream, Option.bind_some] at harrived
  obtain ⟨hsaid, hlost, hkept⟩ := transmitOver_whole hstream hclean harrived hwhole
  simp only [perform, htransmits, if_true]
  rw [hsaid]
  refine ⟨rfl, fun st' hst' => ?_, fun hbody => ?_⟩
  · have hst := stream_settle hst'
    cases hstep : inStep a.request.binary said with
    | false =>
      rw [hlost hstep] at hst
      cases hst
    | true =>
      obtain ⟨peer, hpeer⟩ := hkept hstep
      rw [hpeer] at hst
      cases hst
      rfl
  · unfold isOpen
    rw [stream_settle_of_ne hbody]
    cases hstep : inStep a.request.binary said with
    | false =>
      rw [hlost hstep]
      rfl
    | true =>
      obtain ⟨peer, hpeer⟩ := hkept hstep
      rw [hpeer]
      rfl

/-- A request that a call transmitted. -/
structure Exchange where
  /-- The call. -/
  action : Action
  /-- What arrived when the request was written; nothing if it could not be written. -/
  arrived : Option Bytes
  /-- What the call answered. -/
  outcome : Outcome

namespace Exchange

/-- Just one whole reply arrived. -/
def Answered (e : Exchange) : Prop :=
  ∃ bytes said, e.arrived = some bytes ∧ WholeReply e.action.request.binary bytes said

/-- If just one whole reply arrived, the call answered what it says. -/
def Told (e : Exchange) : Prop :=
  ∀ bytes said, e.arrived = some bytes → WholeReply e.action.request.binary bytes said →
    e.outcome = e.action.outcome said

end Exchange

end Connection

open Connection (Action Exchange)

/-- A connection in use over a link. -/
structure Dialogue (π σ : Type) where
  /-- The connection. -/
  connection : Connection π
  /-- The world around it. -/
  world : σ
  /-- The requests that were transmitted, the last one at the end. -/
  exchanges : List Exchange := []

namespace Dialogue

/-- A new connection. -/
def begin (p : π) (s : σ) : Dialogue π σ := { connection := .ofPeer p, world := s }

/-- The dialogue after one more call. -/
def act (link : Link π σ) (d : Dialogue π σ) (a : Action) : Dialogue π σ where
  connection := (d.connection.perform link a d.world).2.1
  world := (d.connection.perform link a d.world).2.2
  exchanges :=
    if d.connection.transmits a then
      d.exchanges ++
        [⟨a, d.connection.arrived link a d.world, (d.connection.perform link a d.world).1⟩]
    else d.exchanges

/-- The dialogue after some calls. -/
def run (link : Link π σ) (d : Dialogue π σ) (as : List Action) : Dialogue π σ :=
  as.foldl (act link) d

/-- Every reply so far was one whole reply. -/
def AllAnswered (d : Dialogue π σ) : Prop := ∀ e ∈ d.exchanges, e.Answered

/-- The calls are in step with their replies. -/
structure InStep (d : Dialogue π σ) : Prop where
  /-- While every reply is one whole reply, nothing is left to read between two calls. -/
  clean : d.AllAnswered → ∀ st, d.connection.stream = some st → st.incoming = []
  /-- A call whose reply comes after whole replies only is told that reply. -/
  told : ∀ before e after, d.exchanges = before ++ e :: after →
    (∀ e' ∈ before, e'.Answered) → e.Told

/-- A new connection is in step. -/
theorem inStep_begin (p : π) (s : σ) : (begin p s).InStep where
  clean := fun _ st hst => by
    cases hst
    rfl
  told := fun before e after h => by simp [begin] at h

variable {link : Link π σ}

/-- Every call keeps the dialogue in step. -/
theorem InStep.act {d : Dialogue π σ} (hd : d.InStep) (a : Action) : (d.act link a).InStep := by
  cases htransmits : d.connection.transmits a with
  | false =>
    have hsame : (d.act link a).exchanges = d.exchanges := by
      simp only [Dialogue.act, htransmits, Bool.false_eq_true, if_false]
    have hsettled : (d.act link a).connection =
        d.connection.settle a (.error d.connection.refusal) := by
      simp only [Dialogue.act, Connection.perform, htransmits, Bool.false_eq_true, if_false]
    refine ⟨fun hall st hst => ?_, hsame ▸ hd.told⟩
    rw [AllAnswered, hsame] at hall
    rw [hsettled] at hst
    exact hd.clean hall st (Connection.stream_settle hst)
  | true =>
    have hmore : (d.act link a).exchanges = d.exchanges ++
        [⟨a, d.connection.arrived link a d.world, (d.connection.perform link a d.world).1⟩] := by
      simp only [Dialogue.act, htransmits, if_true]
    obtain ⟨st, hstream⟩ : ∃ st, d.connection.stream = some st :=
      Option.isSome_iff_exists.mp (Bool.and_eq_true _ _ ▸ htransmits).1
    refine ⟨fun hall => ?_, fun before e after hsplit hbefore => ?_⟩
    · rw [AllAnswered, hmore] at hall
      rw [List.forall_mem_append, List.forall_mem_singleton] at hall
      obtain ⟨hearlier, bytes, said, harrived, hwhole⟩ := hall
      exact (Connection.perform_whole htransmits hstream (hd.clean hearlier st hstream) harrived
        hwhole).2.1
    · rw [hmore] at hsplit
      -- The exchange in question is the new one, or was there before.
      obtain rfl | ⟨others, last, rfl⟩ := List.eq_nil_or_concat after
      · obtain ⟨rfl, hnew⟩ := List.append_inj' hsplit rfl
        cases hnew
        intro bytes said harrived hwhole
        exact (Connection.perform_whole htransmits hstream (hd.clean hbefore st hstream) harrived
          hwhole).1
      · have hold : d.exchanges = before ++ e :: others := by
          rw [List.concat_eq_append, ← List.cons_append, ← List.append_assoc] at hsplit
          exact (List.append_inj' hsplit rfl).1
        exact hd.told before e others hold hbefore

/-- So do all calls. -/
theorem InStep.run {d : Dialogue π σ} (hd : d.InStep) (as : List Action) :
    (d.run link as).InStep := by
  induction as generalizing d with
  | nil => exact hd
  | cons a as ih => exact ih (hd.act a)

/-- After a connection was closed all calls leave it so, and transmit nothing. -/
theorem run_of_closed {d : Dialogue π σ} (h : d.connection.isOpen = false) (as : List Action) :
    (d.run link as).connection.isOpen = false ∧ (d.run link as).world = d.world := by
  induction as generalizing d with
  | nil => exact ⟨h, rfl⟩
  | cons a as ih =>
    obtain ⟨-, hclosed, hworld⟩ : _ ∧ (d.act link a).connection.isOpen = false ∧
        (d.act link a).world = d.world := Connection.perform_of_closed h a d.world
    obtain ⟨hstill, hsame⟩ := ih hclosed
    exact ⟨hstill, hsame.trans hworld⟩

/-- **The law of a connection.** After any calls on a new connection, over any link:
* once the connection is closed, it stays closed whatever is called, the calls leave the
  world as it is, and each login and each request is answered with "not connected";
* a call that tells that a request was not sent, that its reply was not received or that a
  frame could not be read has closed the connection, and a request that could not be
  written is told as not sent;
* a call whose request and all earlier requests each got one whole reply was told what its
  own reply says, be the earlier ones lines that made no sense;
* while this is so, a call that does not end the session keeps the connection open after a
  line, whatever it says, and after a frame that can be read.

If the link is the one to a peer, the calls are those of a connection with the peer. -/
theorem state_law (link : Link π σ) (p : π) (s : σ) (as : List Action) :
    let d := (begin p s).run link as
    (d.connection.isOpen = false → ∀ as',
      let d' := d.run link as'
      d'.connection.isOpen = false ∧ d'.world = d.world ∧
        (∀ account password privileges,
          (d'.connection.perform link (.authenticate account password privileges) d'.world).1 =
            .login (.error .notConnected)) ∧
        ∀ r, (d'.connection.perform link (.send r) d'.world).1 = .reply (.error .notConnected)) ∧
    (∀ a e, (d.connection.perform link a d.world).1.error? = some e →
      Connection.LosesStep a.request.binary e → (d.act link a).connection.isOpen = false) ∧
    (∀ a, d.connection.transmits a = true → d.connection.arrived link a d.world = none →
      (d.connection.perform link a d.world).1 = a.outcome (.error .couldNotSend) ∧
        (d.act link a).connection.isOpen = false) ∧
    (∀ before e after, d.exchanges = before ++ e :: after →
      (∀ e' ∈ before, e'.Answered) → e.Told) ∧
    (d.AllAnswered → ∀ a bytes said, d.connection.transmits a = true →
      d.connection.arrived link a d.world = some bytes →
      WholeReply a.request.binary bytes said → a.request.body ≠ .quit →
        (d.act link a).connection.isOpen = Connection.inStep a.request.binary said) ∧
    ∀ peer : Peer π σ, link = .ofPeer peer → ∀ a,
      d.connection.perform link a d.world = d.connection.call peer a d.world := by
  intro d
  have hd : d.InStep := (inStep_begin p s).run as
  refine ⟨fun hclosed as' => ?_, fun a e => Connection.perform_of_losesStep,
    fun a => Connection.perform_of_not_arrived, hd.told,
    fun hall a bytes said htransmits harrived hwhole => ?_, fun peer hlink a => ?_⟩
  · obtain ⟨hstill, hworld⟩ := run_of_closed hclosed as'
    exact ⟨hstill, hworld, fun _ _ _ => (Connection.perform_of_closed hstill _ _).1,
      fun _ => (Connection.perform_of_closed hstill _ _).1⟩
  · obtain ⟨st, hstream⟩ : ∃ st, d.connection.stream = some st :=
      Option.isSome_iff_exists.mp (Bool.and_eq_true _ _ ▸ htransmits).1
    exact (Connection.perform_whole htransmits hstream (hd.clean hall st hstream) harrived
      hwhole).2.2
  · rw [hlink]
    exact Connection.perform_ofPeer peer d.connection d.world a

/-- Another end that accepts a login, answers a request with a line that makes no sense, and
the next one with a truth value. -/
def mumbling : Script where
  replies := [{ bytes := (Reply.of (.result .flag true) false false).bytes, hangsUp := false },
    { bytes := utf8 "mumble\n", hangsUp := false },
    { bytes := (Reply.of (.result .flag false) false false).bytes, hangsUp := false }]
  received := [[]]

example :
    let d := (begin { number := 0 } mumbling).run (.ofPeer Script.peer)
      [.authenticate "ann" "pw" .access, .send (.of (.operation (.ids .user))),
        .send (.of (.operation (.ids .user)))]
    d.exchanges.map (·.outcome.error?) = [none, some (.couldNotDecode .malformed), none] ∧
      d.connection.isOpen = true := by decide +kernel

end Dialogue

end RatingServer
