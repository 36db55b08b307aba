import RatingServer.Dispatch
import RatingServer.Connection

/-!
# Parts of a larger world

A peer may be part of a larger world: the peer of that world takes bytes as the smaller
one does, and answers the same. A connection in the larger world then does what a
connection in the smaller one does, in the part of the world that is its own. It is the
same with a service and the bindings to it.
-/

namespace RatingServer

open Wire

variable {π π' σ σ' : Type}

/-- The second peer is the first one inside a larger world. -/
def Peer.IsPart (peer : Peer π σ) (peer' : Peer π' σ') (f : π → π') (put : σ → σ') : Prop :=
  ∀ bs p s, peer' bs (f p) (put s) =
    ((peer bs p s).1, (peer bs p s).2.1.map f, put (peer bs p s).2.2)

namespace Stream

/-- The stream with its other end in a larger world. -/
def map (f : π → π') (st : Stream π) : Stream π' where
  peer := st.peer.map f
  incoming := st.incoming

/-- Reading a line does not depend on who is at the other end. -/
theorem readLine_map (f : π → π') (st : Stream π) :
    (st.map f).readLine = (st.readLine.1, st.readLine.2.map f) := by
  have hnone : (st.map f).peer.isNone = st.peer.isNone := Option.isNone_map
  unfold readLine
  rw [hnone]
  dsimp only [map]
  split
  · rfl
  · split
    · rfl
    · split
      · rfl
      · split <;> rfl

/-- Neither does reading a response. -/
theorem readResponse_map (f : π → π') (binary : Bool) (st : Stream π) :
    (st.map f).readResponse binary =
      ((st.readResponse binary).1, (st.readResponse binary).2.map f) := by
  unfold readResponse
  rw [readLine_map]
  cases binary with
  | true => rfl
  | false =>
    rcases st.readLine with ⟨line, st'⟩
    cases line <;> rfl

section Exchange

variable {peer : Peer π σ} {peer' : Peer π' σ'} {f : π → π'} {put : σ → σ'}

/-- Bytes are written in the larger world as in the smaller one. -/
theorem write_map (h : peer.IsPart peer' f put) (bs : Bytes) (st : Stream π) (s : σ) :
    (st.map f).write peer' bs (put s) =
      ((st.write peer bs s).1.map f, put (st.write peer bs s).2) := by
  obtain ⟨p, incoming⟩ := st
  cases p with
  | none => rfl
  | some p =>
    unfold write map
    dsimp only [Option.map]
    rw [h]
    rfl

/-- A request is exchanged in the larger world as in the smaller one. -/
theorem exchange_map (h : peer.IsPart peer' f put) (r : Request) (st : Stream π) (s : σ) :
    (st.map f).exchange peer' r (put s) =
      ((st.exchange peer r s).1, (st.exchange peer r s).2.1.map f,
        put (st.exchange peer r s).2.2) := by
  unfold exchange
  rw [write_map h]
  dsimp only
  rw [readResponse_map]

end Exchange

end Stream

namespace Connection

/-- The connection with its other end in a larger world. -/
def map (f : π → π') (c : Connection π) : Connection π' where
  stream := c.stream.map (·.map f)
  authenticated := c.authenticated

variable {peer : Peer π σ} {peer' : Peer π' σ'} {f : π → π'} {put : σ → σ'}

/-- A request is transmitted in the larger world as in the smaller one. -/
theorem transmit_map (h : peer.IsPart peer' f put) (r : Request) (c : Connection π) (s : σ) :
    (c.map f).transmit peer' r (put s) =
      ((c.transmit peer r s).1, (c.transmit peer r s).2.1.map f,
        put (c.transmit peer r s).2.2) := by
  obtain ⟨st, authenticated⟩ := c
  cases st with
  | none => rfl
  | some st =>
    unfold transmit map
    dsimp only [Option.map]
    rw [Stream.exchange_map h]
    dsimp only
    split <;> rfl

/-- A login ends in the larger world as in the smaller one. -/
theorem authenticate_map (h : peer.IsPart peer' f put) (account password : String)
    (privileges : Privileges) (c : Connection π) (s : σ) :
    (c.map f).authenticate peer' account password privileges (put s) =
      ((c.authenticate peer account password privileges s).1,
        (c.authenticate peer account password privileges s).2.1.map f,
        put (c.authenticate peer account password privileges s).2.2) := by
  unfold authenticate
  dsimp only
  rw [transmit_map h]
  dsimp only
  split <;> rfl

/-- A request is sent in the larger world as in the smaller one. -/
theorem send_map (h : peer.IsPart peer' f put) (r : Request) (c : Connection π) (s : σ) :
    (c.map f).send peer' r (put s) =
      ((c.send peer r s).1, (c.send peer r s).2.1.map f, put (c.send peer r s).2.2) := by
  have hopen : (c.map f).isOpen = c.isOpen := Option.isSome_map
  have hauth : (c.map f).authenticated = c.authenticated := rfl
  unfold send
  rw [hopen, hauth, transmit_map h]
  split
  · rfl
  · split
    · rfl
    · rcases c.transmit peer r s with ⟨response, c', s'⟩
      cases response with
      | error e => rfl
      | ok response =>
        dsimp only
        split <;> rfl

end Connection

/-- The second service is the first one inside a larger world. -/
def Service.IsPart (service : Service σ) (service' : Service σ') (put : σ → σ') : Prop :=
  ∀ op s, service' op (put s) = ((service op s).1, put (service op s).2)

/-- A request is run in the larger world as in the smaller one. -/
theorem dispatch_put {service : Service σ} {service' : Service σ'} {put : σ → σ'}
    (h : service.IsPart service' put) (caller : Caller) (r : Request) (s : σ) :
    dispatch service' caller r (put s) =
      ((dispatch service caller r s).1, put (dispatch service caller r s).2) := by
  unfold dispatch
  split
  · split
    · rfl
    · rfl
    · rfl
    · rw [h]
  · rfl

/-- Over a binding a request is run in the larger world as in the smaller one. -/
theorem LocalBinding.send_put {service : Service σ} {service' : Service σ'} {put : σ → σ'}
    (h : service.IsPart service' put) (r : Request) (b : LocalBinding) (s : σ) :
    b.send service' r (put s) =
      ((b.send service r s).1, (b.send service r s).2.1, put (b.send service r s).2.2) := by
  unfold send
  split
  · rw [dispatch_put h]
  · rfl

end RatingServer
