import RatingServer.Cluster.Basic

/-!
# Followers

A follower is told of the status of one server. It takes the events that wait for it
in the order in which they happened, each of them once, and it may leave at any time.
-/

namespace RatingServer

/-- A follower of a server. -/
structure Follower where
  /-- The place of the server. -/
  server : Nat
  /-- The identifier of the listener through which it is told. -/
  listener : Nat
  /-- The number of events that were taken. -/
  taken : Nat := 0
  deriving DecidableEq, Repr

variable {ℓ : Type}

/-- Begins to follow the server at a place through a listener. -/
def Cluster.follow (c : Cluster ℓ) (place : Nat) (listener : ℓ) :
    Except CallError Follower × Cluster ℓ :=
  c.onServer place
    (fun s =>
      let (id, s) := s.addListener listener
      (id.map fun id => { server := place, listener := id }, s))
    (.error .notConnected)

namespace Follower

/-- The events that the follower was told of. -/
def told (f : Follower) (c : Cluster ℓ) : List StatusEvent :=
  (c.servers[f.server]?).elim [] (·.eventsFor f.listener)

/-- Takes the events that wait. -/
def take (f : Follower) (c : Cluster ℓ) : List StatusEvent × Follower :=
  ((f.told c).drop f.taken, { f with taken := (f.told c).length })

/-- Whether the follower was told that the server has left. -/
def toldExit (f : Follower) (c : Cluster ℓ) : Bool := (f.told c).any (·.status = .exit)

/-- The follower leaves. -/
def leave (f : Follower) (c : Cluster ℓ) : Cluster ℓ :=
  (c.onServer f.server (fun s => ((), (s.removeListener f.listener).2)) ()).2

end Follower

end RatingServer
