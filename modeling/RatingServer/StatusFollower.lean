import RatingServer.Failure
import RatingServer.Status

/-!
# Following the status of a server

Who cannot be told of a server's status asks for it once in a period, and infers
the changes from two polls that follow each other. A server that no longer answers
has left for good.
-/

namespace RatingServer

/-- What a poll tells of the state of a server. -/
structure PolledState where
  /-- Whether the server is started. -/
  started : Bool
  /-- Whether it is paused. -/
  paused : Bool
  deriving DecidableEq, Repr

namespace PolledState

/-- The changes between two polled states, in the order in which the server made
them. -/
def changes (before after : PolledState) : List ServerStatus :=
  match before.started, after.started with
  | false, false => []
  | false, true => if after.paused then [.started, .paused] else [.started]
  | true, false => [.stopped]
  | true, true =>
    match before.paused, after.paused with
    | false, true => [.paused]
    | true, false => [.resumed]
    | _, _ => []

end PolledState

/-- A poll. -/
structure Poll where
  /-- Whether the server answers. -/
  ping : Except CallError Bool
  /-- Its state. -/
  state : Except CallError PolledState

namespace Poll

/-- Whether the server has left. -/
def isGone (p : Poll) : Bool :=
  match p.ping with
  | .ok true => false
  | _ => true

/-- The events that follow from polls after a polled state. A state that cannot be
read is passed over; nothing follows once the server has left. -/
def events (before : PolledState) : List Poll → List StatusEvent
  | [] => []
  | p :: ps =>
    if p.isGone then [.of .exit]
    else
      match p.state with
      | .error _ => events before ps
      | .ok after => (before.changes after).map StatusEvent.of ++ events after ps

end Poll

end RatingServer
