import RatingServer.Failure
import RatingServer.Settings
import RatingServer.Status

/-!
# Lifecycles

A server is stopped, started, paused, resumed or has left for good. An accepted
call changes the state, calls the hooks that are attached to the change, and tells
every listener of it in the order of their registration. A rejected call changes
nothing.
-/

namespace RatingServer

/-- The states of a server. -/
inductive State where
  /-- It has not started, or stopped again. -/
  | stopped
  /-- It started. -/
  | started
  /-- It paused. -/
  | paused
  /-- It went on after a pause. -/
  | resumed
  /-- It left for good. -/
  | exited
  deriving DecidableEq, Repr

namespace State

/-- The name of a state. -/
def name : State → String
  | stopped => "Stopped"
  | started => "Started"
  | paused => "Paused"
  | resumed => "Resumed"
  | exited => "Exited"

/-- A server that is started, paused or not. -/
def isStarted : State → Bool
  | started | paused | resumed => true
  | stopped | exited => false

/-- A server that is paused. -/
def isPaused (s : State) : Bool := s = paused

/-- Whether the server answers requests. -/
def isRunning : State → Bool
  | started | resumed => true
  | stopped | paused | exited => false

end State

/-- A call that changes the state of a server. -/
inductive Transition where
  /-- Starts the server. -/
  | start
  /-- Pauses it. -/
  | pause
  /-- Lets it go on. -/
  | resume
  /-- Stops it. -/
  | stop
  /-- Makes it leave for good; `shutdownHook` says that the whole process shuts
  down. -/
  | exit (shutdownHook : Bool)
  /-- Gives it a new configuration. -/
  | configure (config : ServerConfig)
  deriving DecidableEq, Repr

/-- A call of what is attached to the changes of a server's state. -/
inductive Hook where
  /-- The server starts. -/
  | start (config : ServerConfig)
  /-- It pauses. -/
  | pause
  /-- It goes on. -/
  | resume (config : ServerConfig)
  /-- It stops. -/
  | stop
  /-- It takes a new configuration. -/
  | configure (config : ServerConfig)
  deriving DecidableEq, Repr

/-- What is told of the changes of a server's state. -/
class Listener (ℓ : Type) where
  /-- What becomes of a listener that is told of an event; nothing if it fails. -/
  react : ℓ → StatusEvent → Option ℓ

/-- What happens during a change of the state. -/
inductive Notice (ℓ : Type) where
  /-- A hook is called. -/
  | hook (h : Hook)
  /-- A listener is told of an event. -/
  | told (id : Nat) (listener : ℓ) (event : StatusEvent)

/-- The lifecycle of a server. -/
structure Lifecycle (ℓ : Type) where
  /-- The state. -/
  state : State := .stopped
  /-- The configuration. -/
  config : ServerConfig
  /-- The listeners in the order of their registration, with their identifiers. -/
  listeners : List (Nat × ℓ) := []
  /-- The identifier of the next listener. -/
  nextId : Nat := 0

namespace Lifecycle

variable {ℓ : Type}

/-- The listeners after an event: those that did not fail. -/
def survivors [Listener ℓ] (e : StatusEvent) (listeners : List (Nat × ℓ)) : List (Nat × ℓ) :=
  listeners.filterMap fun (id, x) => (Listener.react x e).map fun x => (id, x)

/-- Enters a state after a hook, if there is one, and tells the listeners. -/
def enter [Listener ℓ] (l : Lifecycle ℓ) (hook : Option Hook) (state : State) (e : StatusEvent) :
    List (Notice ℓ) × Lifecycle ℓ :=
  ((hook.map Notice.hook).toList ++ l.listeners.map fun (id, x) => .told id x e,
    { l with state, listeners := survivors e l.listeners })

/-- Stops the server. -/
def halt [Listener ℓ] (l : Lifecycle ℓ) : List (Notice ℓ) × Lifecycle ℓ :=
  l.enter (some .stop) .stopped (.of .stopped)

/-- Makes a server that is not started leave for good, which ends all
registrations. -/
def depart [Listener ℓ] (l : Lifecycle ℓ) (shutdownHook : Bool) :
    List (Notice ℓ) × Lifecycle ℓ :=
  let (notices, l) := l.enter none .exited { StatusEvent.of .exit with shutdownHook }
  (notices, { l with listeners := [] })

/-- Why a call is rejected in a state, if it is. -/
def rejection? : State → Transition → Option LifecycleError
  | .exited, _ => some .exited
  | s, .start => if s.isStarted then some .alreadyStarted else none
  | .stopped, .pause => some .notStarted
  | .paused, .pause => some .notRunning
  | _, .pause => none
  | s, .resume => if s.isPaused then none else some .notPaused
  | s, .stop => if s.isStarted then none else some .notStarted
  | _, .exit _ => none
  | s, .configure _ => if s.isStarted then some .configWhileStarted else none

/-- Carries out a call that is not rejected. -/
def perform [Listener ℓ] (l : Lifecycle ℓ) : Transition → List (Notice ℓ) × Lifecycle ℓ
  | .start => l.enter (some (.start l.config)) .started (.of .started)
  | .pause => l.enter (some .pause) .paused (.of .paused)
  | .resume => l.enter (some (.resume l.config)) .resumed (.of .resumed)
  | .stop => l.halt
  | .exit shutdownHook =>
    if l.state.isStarted then
      let (stopping, l) := l.halt
      let (leaving, l) := l.depart shutdownHook
      (stopping ++ leaving, l)
    else l.depart shutdownHook
  | .configure config =>
    { l with config }.enter (some (.configure config)) l.state (.of .configured)

/-- Why the hook for the start fails, if the call is a start. -/
def startFault? (start : ServerConfig → Except CallError Unit) (config : ServerConfig) :
    Transition → Option CallError
  | .start =>
    match start config with
    | .ok () => none
    | .error e => some e
  | _ => none

/-- A call: what happened, and the lifecycle after it if the call is accepted. The
hook for the start may fail; then the server does not start. -/
def call [Listener ℓ] (l : Lifecycle ℓ) (start : ServerConfig → Except CallError Unit)
    (t : Transition) : List (Notice ℓ) × Except CallError (Lifecycle ℓ) :=
  match rejection? l.state t with
  | some e => ([], .error (.lifecycle e))
  | none =>
    match startFault? start l.config t with
    | some e => ([.hook (.start l.config)], .error e)
    | none =>
      let (notices, l) := l.perform t
      (notices, .ok l)

/-- Registers a listener, and answers its identifier. -/
def add (l : Lifecycle ℓ) (listener : ℓ) : Except CallError (Nat × Lifecycle ℓ) :=
  if l.state = .exited then .error (.lifecycle .exited)
  else .ok (l.nextId,
    { l with listeners := l.listeners ++ [(l.nextId, listener)], nextId := l.nextId + 1 })

/-- Ends the registration of a listener, and answers whether there was one. -/
def remove (l : Lifecycle ℓ) (id : Nat) : Bool × Lifecycle ℓ :=
  (l.listeners.any (fun e => e.1 = id),
    { l with listeners := l.listeners.filter fun e => e.1 ≠ id })

end Lifecycle

end RatingServer
