import RatingServer.Cluster.Basic

/-!
# Balancers

A balancer binds servers by address. A binding whose server still answers is kept;
one whose server has left gives way to a new binding of the address.
-/

namespace RatingServer

namespace Balancer

/-- The balancer without the bindings of an address. -/
def without (b : Balancer) (uri : String) : Balancer := b.filter fun e => e.uri ≠ uri

/-- The binding of an address. -/
def find? (b : Balancer) (uri : String) : Option Binding := List.find? (fun e => e.uri = uri) b

/-- Binds a server behind a gateway without asking for credentials, in the place of
whatever is bound at the address. -/
def attachThrough (b : Balancer) (uri : String) (place : Nat) (gateway : Gateway) : Balancer :=
  b.without uri ++ [⟨uri, place, gateway⟩]

/-- Binds a server behind its own gateway. -/
def attach (b : Balancer) (uri : String) (place : Nat) : Balancer :=
  b.attachThrough uri place (.server place)

/-- Ends the binding of an address, and answers whether there was one. -/
def unbind (b : Balancer) (uri : String) : Bool × Balancer :=
  ((b.find? uri).isSome, b.without uri)

end Balancer

namespace Cluster

variable {ℓ : Type}

/-- Binds the server whose gateway is registered at an address, if the gateway
accepts the account. -/
def bindNew (c : Cluster ℓ) (b : Balancer) (uri account password : String) :
    Except CallError Bool × Balancer :=
  match c.lookup uri with
  | .error e => (.error e, b)
  | .ok gateway =>
    match c.remoteServer? gateway account password with
    | none => (.ok false, b)
    | some server => (.ok true, b ++ [⟨uri, server, gateway⟩])

/-- Binds the server whose gateway is registered at an address, unless a server is
bound there that still answers. -/
def balance (c : Cluster ℓ) (b : Balancer) (uri account password : String) :
    Except CallError Bool × Balancer :=
  match b.find? uri with
  | none => c.bindNew b uri account password
  | some e =>
    if c.ping e.server then (.ok true, b) else c.bindNew (b.erase e) uri account password

/-- Works on the balancer at a place. -/
def onBalancer (c : Cluster ℓ) (place : Nat) (work : Balancer → α × Balancer) (absent : α) :
    α × Cluster ℓ :=
  match c.balancers[place]? with
  | none => (absent, c)
  | some b =>
    let (a, b) := work b
    (a, { c with balancers := c.balancers.set place b })

end Cluster

end RatingServer
