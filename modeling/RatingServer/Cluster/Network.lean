import RatingServer.Dispatch
import RatingServer.Cluster.Basic
import RatingServer.Connection
import RatingServer.Serving

/-!
# Clients of a cluster

Servers listen at addresses, and a client reaches a server by either scheme: over a
socket at which it listens, or through a gateway of the same process.
-/

namespace RatingServer

open Wire

/-- A socket at which a server listens. -/
structure Socket where
  /-- The place of the server. -/
  server : Nat
  /-- The kind of the socket. -/
  kind : SocketKind
  deriving DecidableEq, Repr

/-- A cluster whose servers listen at addresses. -/
structure Network (ℓ : Type) where
  /-- The servers. -/
  cluster : Cluster ℓ := {}
  /-- The sockets by address. -/
  sockets : Table String Socket := .empty
  /-- The number of sessions so far. -/
  sessions : Nat := 0

/-- A connection that one of the servers serves. -/
structure ServedBy where
  /-- The place of the server. -/
  server : Nat
  /-- The connection. -/
  connection : ServedConnection
  deriving DecidableEq

/-- A client's way to a server. -/
inductive Client where
  /-- A connection over a socket. -/
  | socket (connection : Connection ServedBy)
  /-- A binding through a gateway of the same process. -/
  | bound (server : Nat) (binding : LocalBinding)

namespace Network

variable {ℓ : Type}

/-- Works on the cluster of a network. -/
def onCluster (n : Network ℓ) (work : Cluster ℓ → α × Cluster ℓ) : α × Network ℓ :=
  let (a, cluster) := work n.cluster
  (a, { n with cluster })

/-- A server listens at an address. -/
def listen (n : Network ℓ) (address : String) (socket : Socket) : Network ℓ :=
  { n with sockets := n.sockets.insert address socket }

/-- Opens a stream to an address at which a server listens. -/
def dial : Dial ServedBy (Network ℓ) := fun address n =>
  match n.sockets.get? address with
  | none => (.error .unreachable, n)
  | some socket =>
    let session : Session :=
      { id := n.sessions.repr, kind := socket.kind, peer := .loopback 0 }
    (.ok ⟨socket.server, { session }⟩, { n with sessions := n.sessions + 1 })

/-- A server at the other end of a stream. -/
def serve [Listener ℓ] : Peer ServedBy (Network ℓ) := fun bs p n =>
  let ((arrived, connection), n) := n.onCluster fun c =>
    c.onServer p.server (fun s =>
      let (arrived, connection, s) := p.connection.receive s bs
      ((arrived, connection), s)) ([], none)
  (arrived, connection.map fun connection => ⟨p.server, connection⟩, n)

/-- The service that bindings to a server use. -/
def boundService (place : Nat) : Service (Network ℓ) := fun op n =>
  n.onCluster (Cluster.serviceOf place Server.runningService op)

/-- The privileges of a binding: evaluators may be used if the account may. -/
def boundPrivileges (mayEvaluate : Bool) : Privileges :=
  if mayEvaluate then .access ||| .evaluate else .access

/-- Binds to the service of a server through the gateway at an address. -/
def bindService (n : Network ℓ) (uri account password : String) : Except CallError Client × Network ℓ :=
  match n.cluster.lookup uri with
  | .error e => (.error e, n)
  | .ok gateway =>
    match n.cluster.remoteService? gateway account password with
    | none => (.error (.gatewayRefused uri account), n)
    | some place =>
      match boundService place (.validateAccount account password .evaluate) n with
      | (.error e, n) => (.error e, n)
      | (.ok mayEvaluate, n) =>
        let caller := Caller.ofSession n.sessions.repr account (boundPrivileges mayEvaluate)
        (.ok (.bound place { caller }), { n with sessions := n.sessions + 1 })

/-- Connects a client by the scheme of its address. -/
def connect [Listener ℓ] (n : Network ℓ) (info : ConnectInfo) :
    Except CallError Client × Network ℓ :=
  match info.endpoint with
  | .error e => (.error e, n)
  | .ok endpoint =>
    match endpoint.scheme with
    | .socket =>
      let (connection, n) := Connection.openFor dial serve info n
      (connection.map .socket, n)
    | .inProcess =>
      n.bindService (Endpoint.gateway .inProcess endpoint.host endpoint.port).text
        info.account info.password

end Network

namespace Client

variable {ℓ : Type}

/-- Sends a request. -/
def send [Listener ℓ] : Channel Client (Network ℓ) := fun r k n =>
  match k with
  | .socket connection =>
    let (response, connection, n) := connection.send Network.serve r n
    (response, .socket connection, n)
  | .bound place binding =>
    let (response, binding, n) := LocalBinding.send (Network.boundService place) r binding n
    (response, .bound place binding, n)

/-- Closes a client. -/
def close [Listener ℓ] (k : Client) (n : Network ℓ) : Client × Network ℓ :=
  match k with
  | .socket connection =>
    let (connection, n) := connection.close Network.serve n
    (.socket connection, n)
  | .bound place binding => (.bound place binding.close, n)

/-- Whether a client is open. -/
def isOpen : Client → Bool
  | .socket connection => connection.isOpen
  | .bound _ binding => binding.isOpen

end Client

end RatingServer
