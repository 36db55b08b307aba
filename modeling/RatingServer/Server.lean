import RatingServer.Lifecycle
import RatingServer.Request
import RatingServer.Store.Basic

/-!
# Servers

A server is a store whose work follows a lifecycle: the store is open while the
server is started, the timer of the periodic tasks runs while the server is
running, and the measure of the requests in flight begins anew with every start
and every stop. What the listeners were told is kept in a journal.

A measure counts the requests that a server is working on; the least busy of some
servers is the first one with the least count. The first run of a timer comes one
period after the start, and every further one a period after the one before it.
-/

namespace RatingServer

/-- The number of requests in flight. -/
structure ActiveMeasure where
  /-- The count. -/
  active : Nat := 0
  deriving DecidableEq, Repr, Inhabited

namespace ActiveMeasure

/-- A request comes in. -/
def enter (m : ActiveMeasure) : ActiveMeasure := ⟨m.active + 1⟩

/-- A request is done. The count never falls below zero. -/
def leave (m : ActiveMeasure) : ActiveMeasure := ⟨m.active - 1⟩

/-- No request is in flight. -/
def reset : ActiveMeasure := ⟨0⟩

/-- The first entry with the least count. -/
def leastBusy? : List (α × ActiveMeasure) → Option α
  | [] => none
  | e :: es => some (es.foldl (fun least e => if e.2.active < least.2.active then e else least) e).1

end ActiveMeasure

/-- A timer. -/
structure Timer where
  /-- Milliseconds between two runs; nothing while the timer stands still. -/
  period : Option Nat := none
  deriving DecidableEq, Repr

namespace Timer

/-- Whether the timer runs. -/
def isRunning (t : Timer) : Bool := t.period.isSome

/-- A timer that runs with a period, if one is given. -/
def start (period : Option Nat) : Timer := ⟨period⟩

/-- A timer that stands still. -/
def stop : Timer := {}

/-- Whether a number of runs come within some milliseconds of the start. -/
def reaches (t : Timer) (runs elapsed : Nat) : Bool :=
  match t.period with
  | none => runs = 0
  | some period => runs * period ≤ elapsed

end Timer

/-- An event that a listener was told. -/
structure JournalEntry (ℓ : Type) where
  /-- The identifier of the listener. -/
  id : Nat
  /-- The listener. -/
  listener : ℓ
  /-- The event. -/
  event : StatusEvent

/-- A server. -/
structure Server (ℓ : Type) where
  /-- The lifecycle. -/
  lifecycle : Lifecycle ℓ
  /-- The store. -/
  store : Store
  /-- The requests in flight. -/
  measure : ActiveMeasure := {}
  /-- The timer of the periodic tasks. -/
  timer : Timer := {}
  /-- What the listeners were told, in order. -/
  journal : List (JournalEntry ℓ) := []

/-- The period of a configuration's tasks in milliseconds. -/
def ServerConfig.taskPeriod? (c : ServerConfig) : Option Nat :=
  c.tasksEvery?.map fun seconds => 1000 * seconds.toNat

/-- The call by which a server carries out a command. -/
def ControlCommand.transition : ControlCommand → Transition
  | .start => .start
  | .stop => .stop
  | .pause => .pause
  | .resume => .resume
  | .exit => .exit false

namespace Server

variable {ℓ : Type}

/-- A stopped server over a store. -/
def of (store : Store) : Server ℓ := { lifecycle := { config := store.config }, store }

/-- The accounts of the server. -/
def accounts (s : Server ℓ) : Accounts := s.store.accounts

/-- The server with other accounts. -/
def withAccounts (s : Server ℓ) (accounts : Accounts) : Server ℓ :=
  { s with store := { s.store with accounts } }

/-- Adds an account. -/
def addAccount (s : Server ℓ) (name password : String) (privileges : Privileges) :
    Except AccountError Unit × Server ℓ :=
  match s.accounts.add name password privileges with
  | .ok accounts => (.ok (), s.withAccounts accounts)
  | .error e => (.error e, s)

/-- Removes an account, and answers whether there was one. -/
def removeAccount (s : Server ℓ) (name : String) : Bool × Server ℓ :=
  let (found, accounts) := s.accounts.remove name
  (found, s.withAccounts accounts)

/-- The state of the server. -/
def state (s : Server ℓ) : State := s.lifecycle.state

/-- Whether the server answers requests. -/
def isRunning (s : Server ℓ) : Bool := s.state.isRunning

/-- Whether the server still answers at all. -/
def ping (s : Server ℓ) : Bool := s.state ≠ .exited

/-- What is attached to the changes of the state. -/
def runHook (s : Server ℓ) : Hook → Server ℓ
  | .start config =>
    { s with store := s.store.openWith config, measure := .reset,
             timer := .start config.taskPeriod? }
  | .pause => { s with timer := .stop }
  | .resume config => { s with timer := .start config.taskPeriod? }
  | .stop => { s with timer := .stop, store := s.store.close, measure := .reset }
  | .configure config => { s with store := s.store.reconfigure config }

/-- Carries out what happens during a change. -/
def notice (s : Server ℓ) : Notice ℓ → Server ℓ
  | .hook h => s.runHook h
  | .told id listener event => { s with journal := s.journal ++ [⟨id, listener, event⟩] }

/-- A call that changes the state. Opening the store never fails. -/
def call [Listener ℓ] (s : Server ℓ) (t : Transition) : Except CallError Unit × Server ℓ :=
  match s.lifecycle.call (fun _ => .ok ()) t with
  | (_, .error e) => (.error e, s)
  | (notices, .ok lifecycle) => (.ok (), notices.foldl notice { s with lifecycle })

/-- Carries out a command. -/
def control [Listener ℓ] (s : Server ℓ) (c : ControlCommand) : Except CallError Unit × Server ℓ :=
  s.call c.transition

/-- The process shuts down; the server may have left before. -/
def shutdown [Listener ℓ] (s : Server ℓ) : Server ℓ := (s.call (.exit true)).2

/-- Registers a listener, and answers its identifier. -/
def addListener (s : Server ℓ) (listener : ℓ) : Except CallError Nat × Server ℓ :=
  match s.lifecycle.add listener with
  | .error e => (.error e, s)
  | .ok (id, lifecycle) => (.ok id, { s with lifecycle })

/-- Ends the registration of a listener, and answers whether there was one. -/
def removeListener (s : Server ℓ) (id : Nat) : Bool × Server ℓ :=
  let (found, lifecycle) := s.lifecycle.remove id
  (found, { s with lifecycle })

/-- What a listener was told, in order. -/
def eventsFor (s : Server ℓ) (id : Nat) : List StatusEvent :=
  (s.journal.filter (·.id = id)).map (·.event)

/-- What a listener has become by the last event that it was told of. -/
def became? [Listener ℓ] (s : Server ℓ) (id : Nat) : Option ℓ :=
  (s.journal.reverse.find? (·.id = id)).bind fun e => Listener.react e.listener e.event

/-- A run of the periodic tasks, which come only while the timer runs. -/
def tick (s : Server ℓ) : Server ℓ :=
  if s.timer.isRunning then { s with store := s.store.runTasks } else s

/-- The service of the store, whatever the state of the server. -/
def bareService : Service (Server ℓ) := fun op s =>
  let (answer, store) := Store.perform op s.store
  (answer, { s with store })

/-- Counts a request while it is worked on. -/
def whileActive (s : Server ℓ) (work : Server ℓ → α × Server ℓ) : α × Server ℓ :=
  let (a, s) := work { s with measure := s.measure.enter }
  (a, { s with measure := s.measure.leave })

/-- The error of a call to a server that does not run. -/
def refusal : CallError := .failure .notRunning

/-- The service of a running server. An account can be validated in every state;
all else is refused unless the server runs, and counted while it is worked on. The
second case stands for a table of methods, one for each other operation, with the same
guard before the call of the method of the store. -/
def runningService : Service (Server ℓ) := fun op s =>
  match op with
  | .validateAccount account password required =>
    bareService (.validateAccount account password required) s
  | op =>
    if s.isRunning then s.whileActive (bareService op) else (.error refusal, s)

/-- Whether the holder of an account may control the server. -/
def admitsControl (s : Server ℓ) (account password : String) : Bool :=
  s.accounts.validate account password .admin

/-- Whether the holder of an account may use the service now. -/
def admitsUse (s : Server ℓ) (account password : String) : Bool :=
  s.accounts.validate account password .access && s.isRunning

end Server

end RatingServer
