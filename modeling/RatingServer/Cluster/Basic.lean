import RatingServer.Server

/-!
# Clusters

Several servers of one process, the balancers that spread clients across them, and
the registry in which their gateways are found by address. A gateway leads to a
server: that of a server to itself, that of a balancer to the one with the fewest
requests in flight among those that it has bound and that run.
-/

namespace RatingServer

/-- A gateway, through which a server is reached with credentials. -/
inductive Gateway where
  /-- That of a server. -/
  | server (place : Nat)
  /-- That of a balancer. -/
  | balancer (place : Nat)
  deriving DecidableEq, Repr

/-- A server that a balancer has bound. -/
structure Binding where
  /-- The address under which it is bound. -/
  uri : String
  /-- The place of the server. -/
  server : Nat
  /-- The gateway. -/
  gateway : Gateway
  deriving DecidableEq, Repr

/-- A balancer: the servers that it has bound, in order. -/
abbrev Balancer := List Binding

/-- The servers and balancers of a process. -/
structure Cluster (ℓ : Type) where
  /-- The servers by place. -/
  servers : List (Server ℓ) := []
  /-- The balancers by place. -/
  balancers : List Balancer := []
  /-- The gateways by address. -/
  registry : Table String Gateway := .empty

namespace Cluster

variable {ℓ : Type}

/-- Adds a server, and answers its place. -/
def addServer (c : Cluster ℓ) (s : Server ℓ) : Nat × Cluster ℓ :=
  (c.servers.length, { c with servers := c.servers ++ [s] })

/-- Adds a balancer, and answers its place. -/
def addBalancer (c : Cluster ℓ) : Nat × Cluster ℓ :=
  (c.balancers.length, { c with balancers := c.balancers ++ [[]] })

/-- Works on the server at a place. -/
def onServer (c : Cluster ℓ) (place : Nat) (work : Server ℓ → α × Server ℓ) (absent : α) :
    α × Cluster ℓ :=
  match c.servers[place]? with
  | none => (absent, c)
  | some s =>
    let (a, s) := work s
    (a, { c with servers := c.servers.set place s })

/-- Whether the server at a place answers requests. -/
def isRunning (c : Cluster ℓ) (place : Nat) : Bool := (c.servers[place]?).any Server.isRunning

/-- Whether the server at a place still answers at all. -/
def ping (c : Cluster ℓ) (place : Nat) : Bool := (c.servers[place]?).any Server.ping

/-- The requests in flight of the server at a place. -/
def measure (c : Cluster ℓ) (place : Nat) : ActiveMeasure :=
  (c.servers[place]?).elim {} Server.measure

/-- A service of the server at a place. -/
def serviceOf (place : Nat) (service : Service (Server ℓ)) : Service (Cluster ℓ) := fun op c =>
  c.onServer place (service op) (.error .notConnected)

/-- Registers a gateway at an address that is free. -/
def bind (c : Cluster ℓ) (uri : String) (g : Gateway) : Except CallError Unit × Cluster ℓ :=
  if c.registry.contains uri then (.error (.remote (uri ++ " is already bound")), c)
  else (.ok (), { c with registry := c.registry.insert uri g })

/-- Ends the registration at an address, and answers whether there was one. -/
def unbind (c : Cluster ℓ) (uri : String) : Bool × Cluster ℓ :=
  (c.registry.contains uri, { c with registry := c.registry.erase uri })

/-- The gateway at an address. -/
def lookup (c : Cluster ℓ) (uri : String) : Except CallError Gateway :=
  match c.registry.get? uri with
  | some g => .ok g
  | none => .error (.remote ("nothing bound at " ++ uri))

/-- The binding of a balancer on whose server a client is put: of the running
servers, the earliest of those with the fewest requests in flight. -/
def idle? (c : Cluster ℓ) (b : Balancer) : Option Binding :=
  ActiveMeasure.leastBusy?
    ((b.filter fun e => c.isRunning e.server).map fun e => (e, c.measure e.server))

/-- The server that a gateway leads to, over at most some number of balancers. -/
def reach? (c : Cluster ℓ) : Nat → Gateway → Option Nat
  | _, .server place => some place
  | 0, .balancer _ => none
  | steps + 1, .balancer place => do
    let b ← c.balancers[place]?
    let e ← c.idle? b
    reach? c steps e.gateway

/-- The server that a gateway leads to. -/
def target? (c : Cluster ℓ) (g : Gateway) : Option Nat := c.reach? c.balancers.length g

/-- The server that a gateway leads to, if it lets the account control it. -/
def remoteServer? (c : Cluster ℓ) (g : Gateway) (account password : String) : Option Nat :=
  (c.target? g).filter fun place =>
    (c.servers[place]?).any (·.admitsControl account password)

/-- The server that a gateway leads to, if it lets the account use its service. -/
def remoteService? (c : Cluster ℓ) (g : Gateway) (account password : String) : Option Nat :=
  (c.target? g).filter fun place =>
    (c.servers[place]?).any (·.admitsUse account password)

end Cluster

end RatingServer
