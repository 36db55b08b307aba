import RatingServer.Dispatch
import RatingServer.Endpoint
import RatingServer.Frame
import RatingServer.Wire.Bytes

/-!
# Connections

A connection is the client's end of a stream to a server. Over it requests are
written and their replies are read, one after another. It transmits nothing but
logins until one is accepted, and it closes when it cannot tell any more where the
next reply begins.

A link carries the bytes of a connection to the other end of its stream, and may fail to
do so. Then the request was not sent, whatever part of it went out, and the connection is
closed. A peer is at the end of a link that never fails.
-/

namespace RatingServer

open Wire

/-- The other end of a stream. It takes bytes, and answers with the bytes that go
back and with what becomes of it; nothing if it hangs up. -/
abbrev Peer (π σ : Type) := Bytes → π → σ → Bytes × Option π × σ

/-- The client's end of a stream. -/
structure Stream (π : Type) where
  /-- The other end; nothing once it has hung up. -/
  peer : Option π
  /-- What has arrived and has not been read. -/
  incoming : Bytes := []

namespace Stream

variable {π σ : Type}

/-- Writes bytes. Nobody takes them once the other end has hung up. -/
def write (peer : Peer π σ) (bs : Bytes) (st : Stream π) (s : σ) : Stream π × σ :=
  match st.peer with
  | none => (st, s)
  | some p =>
    let (arrived, p, s) := peer bs p s
    ({ peer := p, incoming := st.incoming ++ arrived }, s)

/-- Reads a line. It must end unless the other end has hung up, where what is left
counts as a line. -/
def readLine (st : Stream π) : Except CallError String × Stream π :=
  let line := firstLine (maxLineLength + 1) st.incoming
  let rest := { st with incoming := st.incoming.drop line.length }
  let ended := line.getLast? = some newline || maxLineLength < line.length || st.peer.isNone
  if !ended then (.error .couldNotReceive, rest)
  else
    match ofUtf8? line with
    | none => (.error .couldNotReceive, rest)
    | some text =>
      if line.isEmpty then (.error .closedByPeer, rest)
      else if maxLineLength < line.length then (.error .replyTooLong, rest)
      else (.ok text, rest)

/-- Reads a response: a frame or a line. -/
def readResponse (binary : Bool) (st : Stream π) : Except CallError Response × Stream π :=
  if binary then
    let (response, incoming) := Frame.read Response.format st.incoming
    (response, { st with incoming })
  else
    match st.readLine with
    | (.error e, st) => (.error e, st)
    | (.ok line, st) => ((Response.decode line).mapError .couldNotDecode, st)

/-- Writes a request and reads its reply. -/
def exchange (peer : Peer π σ) (r : Request) (st : Stream π) (s : σ) :
    Except CallError Response × Stream π × σ :=
  let (st, s) := st.write peer (utf8 (r.encode ++ "\n")) s
  let (response, st) := st.readResponse r.binary
  (response, st, s)

end Stream

/-- A connection. -/
structure Connection (π : Type) where
  /-- The stream, while the connection is open. -/
  stream : Option (Stream π)
  /-- Whether the last login was accepted. -/
  authenticated : Bool := false

namespace Connection

variable {π σ : Type}

/-- A connection to a party. -/
def ofPeer (p : π) : Connection π := { stream := some { peer := some p } }

/-- Whether the connection is open. -/
def isOpen (c : Connection π) : Bool := c.stream.isSome

/-- Whether the stream still stands at the beginning of a reply. A line that makes no
sense was read to its end; a frame may have been left before its end. -/
def inStep (binary : Bool) : Except CallError Response → Bool
  | .ok _ => true
  | .error (.couldNotDecode _) => !binary
  | .error _ => false

/-- Transmits a request. -/
def transmit (peer : Peer π σ) (r : Request) (c : Connection π) (s : σ) :
    Except CallError Response × Connection π × σ :=
  match c.stream with
  | none => (.error .notConnected, c, s)
  | some st =>
    let (response, st, s) := st.exchange peer r s
    (response, { c with stream := if inStep r.binary response then some st else none }, s)

/-- Logs in. -/
def authenticate (peer : Peer π σ) (account password : String) (privileges : Privileges)
    (c : Connection π) (s : σ) : Except CallError Unit × Connection π × σ :=
  let request := Request.of (.operation (.validateAccount account password privileges))
  let (response, c, s) := c.transmit peer request s
  match response.bind (·.toAnswer .flag) with
  | .ok true => (.ok (), { c with authenticated := true }, s)
  | .ok false => (.error (.accountRejected account), { c with authenticated := false }, s)
  | .error e => (.error e, c, s)

/-- Sends a request. The request to end the session closes the connection. -/
def send (peer : Peer π σ) (r : Request) (c : Connection π) (s : σ) :
    Except CallError Response × Connection π × σ :=
  if !c.isOpen then (.error .notConnected, c, s)
  else if !c.authenticated then (.error .notAuthenticated, c, s)
  else
    match c.transmit peer r s with
    | (.error e, c, s) => (.error e, c, s)
    | (.ok response, c, s) =>
      (.ok response, if r.body = .quit then { stream := none } else c, s)

/-- Closes the connection, with a farewell if it is logged in. -/
def close (peer : Peer π σ) (c : Connection π) (s : σ) : Connection π × σ :=
  if c.authenticated && c.isOpen then
    let (_, _, s) := c.transmit peer (.of .quit) s
    ({ stream := none }, s)
  else ({ stream := none }, s)

end Connection

/-- How an address is reached: the other end of a new stream to it. -/
abbrev Dial (π σ : Type) := String → σ → Except CallError π × σ

namespace Connection

variable {π σ : Type}

/-- Opens a connection to an address. -/
def connect (dial : Dial π σ) (address : String) (s : σ) : Except CallError (Connection π) × σ :=
  let (p, s) := dial address s
  (p.map ofPeer, s)

/-- Opens a connection and logs in. A connection whose login fails is dropped. -/
def openFor (dial : Dial π σ) (peer : Peer π σ) (info : ConnectInfo) (s : σ) :
    Except CallError (Connection π) × σ :=
  match info.endpoint with
  | .error e => (.error e, s)
  | .ok endpoint =>
    match connect dial endpoint.socketAddress s with
    | (.error e, s) => (.error e, s)
    | (.ok c, s) =>
      match c.authenticate peer info.account info.password .access s with
      | (.error e, c, s) => (.error e, (c.close peer s).2)
      | (.ok (), c, s) => (.ok c, s)

end Connection

/-- A channel on which every request has a stream of its own, with the credentials
inside the request. -/
structure OneShot where
  /-- The address of the socket. -/
  address : String
  deriving DecidableEq, Repr

namespace OneShot

variable {π σ : Type}

/-- Sends a request. -/
def send (dial : Dial π σ) (peer : Peer π σ) (w : OneShot) (r : Request) (s : σ) :
    Except CallError Response × σ :=
  match dial w.address s with
  | (.error e, s) => (.error e, s)
  | (.ok p, s) =>
    let (response, _, s) := Stream.exchange peer r { peer := some p } s
    (response, s)

/-- Sends a command, and answers whether the server accepted the account. -/
def control (dial : Dial π σ) (peer : Peer π σ) (w : OneShot) (c : ControlCommand)
    (account password : String) (s : σ) : Except CallError Bool × σ :=
  let (response, s) := w.send dial peer (.of (.control c (some account) (some password))) s
  (response.bind (·.toAnswer .flag), s)

/-- Sends the request to end the session. -/
def quit (dial : Dial π σ) (peer : Peer π σ) (w : OneShot) (s : σ) :
    Except CallError Unit × σ :=
  let (response, s) := w.send dial peer (.of .quit) s
  ((response.bind (·.toResult)).map fun _ => (), s)

end OneShot

/-- What carries bytes to the other end of a stream, if that has not hung up. It answers
with the bytes that come back and with what becomes of the other end, and with nothing if
the bytes could not be written. -/
abbrev Link (π σ : Type) := Bytes → Option π → σ → Option (Bytes × Option π) × σ

variable {π σ : Type}

/-- The link to a peer. Nobody takes what is written once the peer has hung up. -/
def Link.ofPeer (peer : Peer π σ) : Link π σ := fun bs p s =>
  match p with
  | none => (some ([], none), s)
  | some p =>
    let (arrived, p, s) := peer bs p s
    (some (arrived, p), s)

namespace Connection

/-- Transmits a request over a link. -/
def transmitOver (link : Link π σ) (r : Request) (c : Connection π) (s : σ) :
    Except CallError Response × Connection π × σ :=
  match c.stream with
  | none => (.error .notConnected, c, s)
  | some st =>
    match link (utf8 (r.encode ++ "\n")) st.peer s with
    | (none, s) => (.error .couldNotSend, { c with stream := none }, s)
    | (some (arrived, peer), s) =>
      let (response, st) :=
        Stream.readResponse r.binary { peer, incoming := st.incoming ++ arrived }
      (response, { c with stream := if inStep r.binary response then some st else none }, s)

/-- To transmit to a peer is to transmit over the link to it. -/
theorem transmit_eq (peer : Peer π σ) (r : Request) (c : Connection π) (s : σ) :
    c.transmit peer r s = c.transmitOver (.ofPeer peer) r s := by
  unfold transmit transmitOver
  cases hstream : c.stream with
  | none => rfl
  | some st =>
    obtain ⟨p, incoming⟩ := st
    cases p with
    | none =>
      simp only [Stream.exchange, Stream.write, Link.ofPeer, List.append_nil]
      rfl
    | some p => rfl

end Connection

end RatingServer
