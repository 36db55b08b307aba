import RatingServer.Failure
import RatingServer.Text.Basic

/-!
# Endpoints

The address of a server: a scheme, a host, a port and an optional path. A client
also says how it logs in, and how it wants to learn of changes of the server's
state.
-/

namespace RatingServer

/-- The way in which a server is reached. -/
inductive Scheme where
  /-- Over a socket. -/
  | socket
  /-- Inside the same process. -/
  | inProcess
  deriving DecidableEq, Repr

namespace Scheme

/-- The name of a scheme. -/
def name : Scheme → String
  | socket => "hdp"
  | inProcess => "local"

/-- The scheme of a name. -/
def ofName? : String → Option Scheme
  | "hdp" => some socket
  | "local" => some inProcess
  | _ => none

end Scheme

/-- The address of a server. -/
structure Endpoint where
  /-- The way in which it is reached. -/
  scheme : Scheme
  /-- The host. -/
  host : String
  /-- The port. -/
  port : UInt16
  /-- The path. -/
  path : Option String
  deriving DecidableEq, Repr

namespace Endpoint

/-- The text before the first occurrence of a separator, and the text after it. -/
def splitFirst (separator : List Char) : List Char → Option (List Char × List Char)
  | [] => if separator.isEmpty then some ([], []) else none
  | c :: cs =>
    if separator.isPrefixOf (c :: cs) then some ([], (c :: cs).drop separator.length)
    else (splitFirst separator cs).map fun r => (c :: r.1, r.2)

/-- The text before the last occurrence of a character, and the text after it. -/
def splitLast (separator : Char) (cs : List Char) : Option (List Char × List Char) :=
  (splitFirst [separator] cs.reverse).map fun r => (r.2.reverse, r.1.reverse)

/-- Reads the host and the port. -/
def parseAuthority (cs : List Char) : Except UriFault (String × UInt16) :=
  match splitLast ':' cs with
  | none => .error .missingPort
  | some ([], _) => .error .missingHost
  | some (host, port) =>
    match Text.naturalBelow? UInt16.size port with
    | none => .error .invalidPort
    | some port => .ok (String.ofList host, UInt16.ofNat port)

/-- Reads an address. -/
def parse (uri : String) : Except UriFault Endpoint :=
  match splitFirst [':', '/', '/'] uri.toList with
  | none => .error .missingScheme
  | some (scheme, rest) =>
    match Scheme.ofName? (String.ofList scheme) with
    | none => .error .unknownScheme
    | some scheme => do
      let (authority, path) := (splitFirst ['/'] rest).getD (rest, [])
      let (host, port) ← parseAuthority authority
      return ⟨scheme, host, port, if path.isEmpty then none else some (String.ofList path)⟩

/-- The host and the port. -/
def socketAddress (e : Endpoint) : String := e.host ++ ":" ++ e.port.toNat.repr

/-- The text of an address. -/
def text (e : Endpoint) : String :=
  e.scheme.name ++ "://" ++ e.socketAddress ++ e.path.elim "" ("/" ++ ·)

/-- The address of the gateway of a server. -/
def gateway (scheme : Scheme) (host : String) (port : UInt16) : Endpoint :=
  ⟨scheme, host, port, some "gateway"⟩

end Endpoint

/-- How a client reaches a server and follows its state. -/
structure ConnectInfo where
  /-- The account. -/
  account : String
  /-- Its password. -/
  password : String
  /-- The address of the server. -/
  connectUri : String
  /-- The address at which the client itself is reached. -/
  bindUri : Option String := none
  /-- Whether the client asks for the state instead of being told. -/
  pullMode : Bool := false
  /-- Milliseconds between two such questions. -/
  period : Nat := 5000
  /-- Milliseconds after which a socket gives up. -/
  timeout : Nat := 30000
  /-- The address that the server should use to reach the client. -/
  globalAddress : Option String := none
  deriving DecidableEq, Repr

namespace ConnectInfo

/-- The client asks for the state once in a period. -/
def withPullMode (info : ConnectInfo) (period : Nat) : ConnectInfo :=
  { info with pullMode := true, period }

/-- The address of the server. -/
def endpoint (info : ConnectInfo) : Except CallError Endpoint :=
  (Endpoint.parse info.connectUri).mapError (.invalidUri info.connectUri)

end ConnectInfo

end RatingServer
