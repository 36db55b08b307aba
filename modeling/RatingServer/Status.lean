import RatingServer.Wire.Choice
import RatingServer.Wire.Record

/-!
# Status events

What a server tells its listeners about changes of its state.
-/

namespace RatingServer

open Wire

/-- A change of a server's state. -/
inductive ServerStatus where
  /-- The server started. -/
  | started
  /-- The server paused. -/
  | paused
  /-- The server went on after a pause. -/
  | resumed
  /-- The server stopped. -/
  | stopped
  /-- The server took a new configuration. -/
  | configured
  /-- The server left for good. -/
  | exit
  deriving DecidableEq, Repr

namespace ServerStatus

/-- All changes, in the order of their numbers. -/
def all : List ServerStatus := [started, paused, resumed, stopped, configured, exit]

/-- The name of a change. -/
def name : ServerStatus → String
  | started => "started"
  | paused => "paused"
  | resumed => "resumed"
  | stopped => "stopped"
  | configured => "setconfig"
  | exit => "exit"

/-- The change of a name. -/
def ofName? (s : String) : Option ServerStatus := all.find? (·.name = s)

/-- The format of a change. -/
def format : Format ServerStatus := .names all name

end ServerStatus

/-- An event that listeners are told. -/
structure StatusEvent where
  /-- The change. -/
  status : ServerStatus
  /-- A message about it. -/
  message : String := ""
  /-- Whether the whole process shuts down. -/
  shutdownHook : Bool := false
  deriving DecidableEq, Repr

namespace StatusEvent

/-- The event of a change, without message. -/
def of (status : ServerStatus) : StatusEvent := { status }

/-- The fields of an event. -/
def fields : Fields StatusEvent :=
  ((required "status" ServerStatus.format).and <| (required "message" .string).and <|
    required "shutdown_hook" .bool).map
    (fun (a, b, c) => ⟨a, b, c⟩) (fun e => (e.status, e.message, e.shutdownHook))

/-- The format of an event. -/
def format : Format StatusEvent := fields.format

end StatusEvent

end RatingServer
