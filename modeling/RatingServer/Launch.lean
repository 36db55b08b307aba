import RatingServer.Cluster.Balancer
import RatingServer.Cluster.Network
import RatingServer.CommandLine.ServerOptions

/-!
# Launching a server

A launched server is found in its own process through its gateway and through the
gateway of a balancer that has bound it, and from outside at its two sockets. It
starts at once unless it is told to wait.
-/

namespace RatingServer

/-- A listener that waits for the end of a server. -/
structure ExitSignal where
  /-- Whether the end has come. -/
  isSet : Bool := false
  deriving DecidableEq, Repr

/-- The signal is set by the end, and goes on whatever it is told of. -/
instance : Listener ExitSignal where
  react signal event := some (if event.status = .exit then { isSet := true } else signal)

/-- Why a server cannot be launched. -/
inductive LaunchError where
  /-- An account cannot be made. -/
  | account (e : AccountError)
  /-- A gateway cannot be registered, or the server does not start. -/
  | call (e : CallError)

/-- The text of an error. -/
def LaunchError.message : LaunchError → String
  | .account e => e.message
  | .call e => e.message

/-- A launched server. -/
structure Launched where
  /-- The network that the server is in. -/
  network : Network ExitSignal
  /-- The place of the server. -/
  server : Nat
  /-- The identifier of the listener that waits for its end. -/
  signal : Nat

namespace LaunchConfig

/-- The address of the gateway at a port. -/
def gatewayAt (c : LaunchConfig) (port : UInt16) : String :=
  (Endpoint.gateway .inProcess c.server.host port).text

/-- The address of the socket at a port. -/
def socketAt (c : LaunchConfig) (port : UInt16) : String :=
  (Endpoint.gateway .socket c.server.host port).socketAddress

/-- The address of the socket of the service. -/
def serviceAddress (c : LaunchConfig) : String := c.socketAt c.server.ports.server

/-- A server with its accounts, which waits for its own end. -/
def prepare (c : LaunchConfig) : Except LaunchError (Nat × Server ExitSignal) := do
  let accounts ← (Accounts.ofConfig c.accounts).mapError .account
  let (signal, server) := (Server.of (.of c.server accounts c.evaluators)).addListener {}
  return (← signal.mapError .call, server)

/-- A cluster with a server and a balancer, each behind its gateway. -/
def enroll (c : LaunchConfig) (server : Server ExitSignal) :
    Except LaunchError (Nat × Cluster ExitSignal) := do
  let own := c.gatewayAt c.server.ports.server
  let (place, cluster) := ({} : Cluster ExitSignal).addServer server
  let (bound, cluster) := cluster.bind own (.server place)
  bound.mapError .call
  let (balancer, cluster) := cluster.addBalancer
  let ((), cluster) := cluster.onBalancer balancer (fun b => ((), b.attach own place)) ()
  let (bound, cluster) := cluster.bind (c.gatewayAt c.server.ports.balancer) (.balancer balancer)
  bound.mapError .call
  return (place, cluster)

/-- Launches a server. -/
def launch (c : LaunchConfig) : Except LaunchError Launched := do
  let (signal, server) ← c.prepare
  let (started, server) := if c.autoStart then server.control .start else (.ok (), server)
  started.mapError .call
  let (place, cluster) ← c.enroll server
  let network := (({ cluster } : Network ExitSignal).listen c.serviceAddress ⟨place, .service⟩).listen
    (c.socketAt c.server.ports.socketControl) ⟨place, .control⟩
  return { network, server := place, signal }

end LaunchConfig

namespace Launched

/-- Whether the server has left for good. -/
def isOver (l : Launched) : Bool :=
  (l.network.cluster.servers[l.server]?).any fun s => (s.became? l.signal).any (·.isSet)

end Launched

end RatingServer
