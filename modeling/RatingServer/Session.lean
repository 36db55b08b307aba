import RatingServer.Dispatch
import RatingServer.Frame
import RatingServer.Server
import RatingServer.SocketAddress

/-!
# Sessions

A session is what a server knows of one connection. It begins without a login; a
request to validate an account logs it in with the privileges asked for, and a
failed one logs it out. The sockets of the service and of control differ in what
they do for whom. Every line is answered with one reply.
-/

namespace RatingServer

open Wire

/-- The two sockets of a server. -/
inductive SocketKind where
  /-- For the service. -/
  | service
  /-- For control. -/
  | control
  deriving DecidableEq, Repr

namespace SocketKind

/-- The name of a socket. -/
def name : SocketKind → String
  | service => "service"
  | control => "control"

/-- The socket of a name. -/
def ofName? : String → Option SocketKind
  | "service" => some service
  | "control" => some control
  | _ => none

/-- The privileges that every login on a socket has. -/
def privileges : SocketKind → Privileges
  | service => .access
  | control => .admin

end SocketKind

/-- What is written back for a line. -/
structure Reply where
  /-- The bytes. -/
  bytes : Bytes
  /-- Whether the connection ends after them. -/
  close : Bool
  deriving DecidableEq, Repr

namespace Reply

/-- The bytes of a response: a frame or a line. -/
def encode (r : Response) (binary : Bool) : Except CallError Bytes :=
  if binary then Frame.encode Response.format r else .ok (utf8 (r.encode ++ "\n"))

/-- The reply with a response. A response that is too long for a frame is replaced
by a failure that says so. -/
def of (r : Response) (binary close : Bool) : Reply :=
  let bytes :=
    match encode r binary with
    | .ok bytes => bytes
    | .error e =>
      match encode (.failure (.internal e.message)) binary with
      | .ok bytes => bytes
      | .error _ => []
  ⟨bytes, close || bytes.isEmpty⟩

end Reply

/-- A session. -/
structure Session where
  /-- The identifier. -/
  id : String
  /-- The socket. -/
  kind : SocketKind
  /-- The address at the other end. -/
  peer : SocketAddress
  /-- Who is logged in. -/
  caller : Option Caller := none
  deriving DecidableEq

namespace Session

variable {ℓ : Type}

/-- Logs a session in if the account has the password and the privileges, and out
otherwise. -/
def authenticate (s : Session) (accounts : Accounts) (account password : String)
    (privileges : Privileges) : Bool × Session :=
  if accounts.validate account password privileges then
    (true, { s with
      caller := some ((Caller.ofSession s.id account privileges).setAttribute
        Caller.peerAddressAttribute s.peer.text) })
  else (false, { s with caller := none })

/-- Answers a request to validate an account. -/
def login (s : Session) (v : Server ℓ) (account password : String) (asked : Privileges) :
    Response × Session × Server ℓ :=
  let (ok, s) := s.authenticate v.accounts account password (asked ||| s.kind.privileges)
  (.result .flag ok, s, v)

/-- Carries out a command on the server. -/
def command [Listener ℓ] (v : Server ℓ) (c : ControlCommand) : Response × Server ℓ :=
  match v.control c with
  | (.ok (), v) => (.result .flag true, v)
  | (.error e, v) => (.failure e.toFailure, v)

/-- Answers a request of someone who is logged in on the socket of the service. -/
def answerCaller [Listener ℓ] (v : Server ℓ) (caller : Caller) (r : Request) :
    Response × Server ℓ :=
  match r.body with
  | .control c _ _ =>
    if caller.privileges.isAdmin then command v c else (.failure .permissionDenied, v)
  | .sessionAttribute _ => dispatch Server.bareService caller r v
  | _ =>
    if v.isRunning then v.whileActive (dispatch Server.bareService caller r)
    else (.failure .notRunning, v)

/-- Answers a request on the socket of the service. -/
def answerService [Listener ℓ] (s : Session) (v : Server ℓ) (r : Request) :
    Response × Session × Server ℓ :=
  match r.body with
  | .operation (.validateAccount account password asked) => s.login v account password asked
  | _ =>
    match s.caller with
    | none => (.failure .notAuthenticated, s, v)
    | some caller =>
      let (response, v) := answerCaller v caller r
      (response, s, v)

/-- Answers a request on the socket of control. Credentials in a command count for
this command alone. -/
def answerControl [Listener ℓ] (s : Session) (v : Server ℓ) (r : Request) :
    Response × Session × Server ℓ :=
  match r.body with
  | .operation (.validateAccount account password asked) => s.login v account password asked
  | .control c (some account) (some password) =>
    if v.admitsControl account password then
      let (response, v) := command v c
      (response, s, v)
    else (.result .flag false, s, v)
  | .control c _ _ =>
    match s.caller with
    | some _ =>
      let (response, v) := command v c
      (response, s, v)
    | none => (.failure .notAuthenticated, s, v)
  | _ => (.empty, s, v)

/-- Answers a request. -/
def answer [Listener ℓ] (s : Session) (v : Server ℓ) (r : Request) :
    Response × Session × Server ℓ :=
  match r.body with
  | .quit => (.empty, s, v)
  | _ =>
    match s.kind with
    | .service => s.answerService v r
    | .control => s.answerControl v r

/-- Answers a line. -/
def handleLine [Listener ℓ] (s : Session) (v : Server ℓ) (line : String) :
    Reply × Session × Server ℓ :=
  match Request.decode line with
  | .error f =>
    (.of (.failure (.invalidRequest (CallError.couldNotDecode f).message)) false false, s, v)
  | .ok r =>
    let (response, s, v) := s.answer v r
    (.of response r.binary (r.body = .quit), s, v)

end Session

end RatingServer
