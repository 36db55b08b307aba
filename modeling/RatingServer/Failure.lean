import RatingServer.Wire.Format
import RatingServer.Text.Quoted
import RatingServer.Wire.Choice

/-!
# Failures

What can go wrong with a call. A failure is what a server answers; a call error
is what its caller sees, which also covers the way to the server and back. Every
error carries its cause; its text is made from the cause.
-/

namespace RatingServer

open Wire

/-- Why a server rejects a change of its state. -/
inductive LifecycleError where
  /-- It started before. -/
  | alreadyStarted
  /-- It has not started. -/
  | notStarted
  /-- It is not running. -/
  | notRunning
  /-- It is not paused. -/
  | notPaused
  /-- Its configuration cannot change while it is started. -/
  | configWhileStarted
  /-- It has left for good. -/
  | exited
  deriving DecidableEq, Repr

namespace LifecycleError

/-- All reasons, in the order of their numbers. -/
def all : List LifecycleError :=
  [alreadyStarted, notStarted, notRunning, notPaused, configWhileStarted, exited]

/-- The name of a reason. -/
def name : LifecycleError → String
  | alreadyStarted => "AlreadyStarted"
  | notStarted => "NotStarted"
  | notRunning => "NotRunning"
  | notPaused => "NotPaused"
  | configWhileStarted => "ConfigWhileStarted"
  | exited => "Exited"

/-- The text of a reason. -/
def message : LifecycleError → String
  | alreadyStarted => "server already started"
  | notStarted => "server not started"
  | notRunning => "server not running"
  | notPaused => "server not paused"
  | configWhileStarted => "configuration cannot change while the server is started"
  | exited => "server has exited"

/-- The format of a reason. -/
def format : Format LifecycleError := .names all name

end LifecycleError

/-- What a server answers when it does not do what it was asked. -/
inductive Failure where
  /-- The session lacks a privilege. -/
  | permissionDenied
  /-- The session is not logged in. -/
  | notAuthenticated
  /-- The server is not running. -/
  | notRunning
  /-- The request makes no sense. -/
  | invalidRequest (reason : String)
  /-- The server cannot do it. -/
  | unsupported (operation : String)
  /-- The server's state does not allow it. -/
  | lifecycle (error : LifecycleError)
  /-- Something went wrong inside the server. -/
  | internal (reason : String)
  deriving DecidableEq, Repr

namespace Failure

/-- The text of a failure. -/
def message : Failure → String
  | permissionDenied => "Permission denied"
  | notAuthenticated => "Session not authenticated"
  | notRunning => "Server is not running"
  | invalidRequest reason => "Invalid request: " ++ reason
  | unsupported operation => "Unsupported operation: " ++ operation
  | lifecycle error => "Lifecycle error: " ++ error.message
  | internal reason => "Internal error: " ++ reason

/-- The format of a failure. -/
def format : Format Failure :=
  .choice
    [.bareName "PermissionDenied" permissionDenied,
      .bareName "NotAuthenticated" notAuthenticated, .bareName "NotRunning" notRunning,
      .payload "InvalidRequest" .string invalidRequest,
      .payload "Unsupported" .string unsupported,
      .payload "Lifecycle" LifecycleError.format lifecycle,
      .payload "InternalError" .string internal]
    fun
    | permissionDenied => .bareName 0
    | notAuthenticated => .bareName 1
    | notRunning => .bareName 2
    | invalidRequest reason => .of 3 .string reason
    | unsupported operation => .of 4 .string operation
    | lifecycle error => .of 5 LifecycleError.format error
    | internal reason => .of 6 .string reason

end Failure

/-- Why an address is no address of a server. -/
inductive UriFault where
  /-- No scheme. -/
  | missingScheme
  /-- An unknown scheme. -/
  | unknownScheme
  /-- No port. -/
  | missingPort
  /-- No host. -/
  | missingHost
  /-- The port is no number of 16 bits. -/
  | invalidPort
  deriving DecidableEq, Repr

/-- The text of the fault. -/
def UriFault.message : UriFault → String
  | missingScheme => "missing scheme"
  | unknownScheme => "unknown scheme"
  | missingPort => "missing port"
  | missingHost => "missing host"
  | invalidPort => "invalid port"

/-- The way to a server failed. -/
inductive CallError where
  /-- Nothing answers at the address. -/
  | unreachable
  /-- The address cannot be read. -/
  | invalidUri (uri : String) (fault : UriFault)
  /-- The server did not accept the account. -/
  | accountRejected (account : String)
  /-- The gateway at an address did not accept the account. -/
  | gatewayRefused (uri account : String)
  /-- The connection is not logged in. -/
  | notAuthenticated
  /-- The connection is closed. -/
  | notConnected
  /-- The request could not be sent. -/
  | couldNotSend
  /-- The body of a frame is above the limit. -/
  | frameTooLong (length : Nat)
  /-- Whoever followed the status is gone. -/
  | followerGone
  /-- The reply could not be received. -/
  | couldNotReceive
  /-- The connection was closed before a reply came. -/
  | closedByPeer
  /-- The reply line is above the limit. -/
  | replyTooLong
  /-- What was received cannot be read. -/
  | couldNotDecode (fault : DecodeFault)
  /-- The reply holds something other than what was asked for. -/
  | unexpectedReply (wanted got : String)
  /-- The server of the same process failed. -/
  | remote (reason : String)
  /-- The server's state does not allow it. -/
  | lifecycle (error : LifecycleError)
  /-- The server answered with a failure. -/
  | failure (failure : Failure)
  deriving DecidableEq, Repr

namespace CallError

/-- The kind of an error. -/
def kind : CallError → String
  | unreachable | invalidUri _ _ => "CouldNotConnect"
  | accountRejected _ | gatewayRefused _ _ => "AuthenticationError"
  | notAuthenticated => "NotAuthenticated"
  | notConnected => "NotConnected"
  | couldNotSend | frameTooLong _ | followerGone => "CouldNotSend"
  | couldNotReceive | closedByPeer | replyTooLong => "CouldNotReceive"
  | couldNotDecode _ => "CouldNotDecode"
  | unexpectedReply _ _ => "UnexpectedReply"
  | remote _ => "Remote"
  | lifecycle _ => "Lifecycle"
  | failure _ => "Failure"

/-- The text of an error. -/
def message : CallError → String
  | unreachable => "could not connect: <io>"
  | invalidUri uri fault =>
    "could not connect: invalid URI " ++ Text.quote uri ++ ": " ++ fault.message
  | accountRejected account =>
    "could not authenticate: account " ++ account ++ " was not accepted"
  | gatewayRefused uri account =>
    "could not authenticate: gateway at " ++ uri ++ " refused account " ++ account
  | notAuthenticated => "session is not authenticated"
  | notConnected => "channel is not connected"
  | couldNotSend => "could not send RPC request: <io>"
  | frameTooLong n =>
    "could not send RPC request: " ++ (DecodeFault.frameTooLong n).message
  | followerGone => "could not send RPC request: status follower has gone away"
  | couldNotReceive => "could not receive RPC response: <io>"
  | closedByPeer => "could not receive RPC response: connection closed by peer"
  | replyTooLong => "could not receive RPC response: response line too long"
  | couldNotDecode fault => "could not decode RPC message: " ++ fault.message
  | unexpectedReply wanted got => "unexpected reply: expected " ++ wanted ++ ", got " ++ got
  | remote reason => "remote invocation failed: " ++ reason
  | lifecycle error => "lifecycle error: " ++ error.message
  | failure f => "request failed: " ++ f.message

/-- What a caller sees of a failure. -/
def ofFailure : Failure → CallError
  | .lifecycle error => lifecycle error
  | f => failure f

/-- What a server answers when it met an error itself. -/
def toFailure : CallError → Failure
  | failure f => f
  | lifecycle error => .lifecycle error
  | notAuthenticated => .notAuthenticated
  | e => .internal e.message

end CallError

end RatingServer
