import RatingServer.Request
import RatingServer.Response

/-!
# Dispatch

A request is run for a caller against a service. The caller must have the
privileges that the request needs. Whatever offers the operations is a service:
the store itself, a server that guards it, or a connection to another process.

A channel takes requests and answers with responses. Whatever the channel, its
operations are offered as a service. The shortest channel is a binding to a
service of the same process, where nothing is encoded.
-/

namespace RatingServer

/-- What is known of the party at the other end of a channel. -/
structure Caller where
  /-- The account. -/
  account : String
  /-- The privileges. -/
  privileges : Privileges
  /-- Attributes of the session. -/
  attributes : Table String String := .empty
  deriving DecidableEq

namespace Caller

/-- The name of the attribute for the session's identifier. -/
def sessionIdAttribute : String := "session_id"

/-- The name of the attribute for the address at the other end. -/
def peerAddressAttribute : String := "peer_address"

/-- A caller with the identifier of its session. -/
def ofSession (sessionId account : String) (privileges : Privileges) : Caller :=
  ⟨account, privileges, Table.empty.insert sessionIdAttribute sessionId⟩

/-- The caller with an attribute set. -/
def setAttribute (c : Caller) (name value : String) : Caller :=
  { c with attributes := c.attributes.insert name value }

/-- An attribute of a caller. The account and its privileges can be asked for by
name and cannot be hidden. -/
def attribute? (c : Caller) (name : String) : Option String :=
  if name = "account_name" then some c.account
  else if name = "account_privileges" then some c.privileges.bits.toNat.repr
  else c.attributes.get? name

end Caller

/-- What offers the operations, with a state that they may change. -/
abbrev Service (σ : Type) := (op : Operation) → σ → Except CallError op.kind.Answer × σ

/-- Runs a request for a caller against a service. A request to end the session is
answered with nothing, and commands are no operations of a service.

The case of an operation stands for a table of arms, one for each operation, which call the
method of the service with the fields of the request and wrap what it answers. The arms
differ in the method, which is told by the operation, and in the wrapping, which is told
by its kind. -/
def dispatch (service : Service σ) (caller : Caller) (request : Request) (s : σ) :
    Response × σ :=
  if caller.privileges.contains request.body.required then
    match request.body with
    | .quit => (.empty, s)
    | .control _ _ _ =>
      (.failure (.invalidRequest "control commands are not service operations"), s)
    | .sessionAttribute name => (.ofOption .text (caller.attribute? name), s)
    | .operation op =>
      let (answer, s) := service op s
      (.ofAnswer op.kind answer, s)
  else (.failure .permissionDenied, s)

/-- What carries requests over a channel in some state. -/
abbrev Channel (κ σ : Type) := Request → κ → σ → Except CallError Response × κ × σ

namespace Channel

variable {κ σ : Type}

/-- The service at the other end of a channel: every operation is one request.

It stands for two tables with an entry for each operation: the builders of requests,
each of which puts the arguments of one method into a body, and the extractors of
responses, each of which expects one form of result. A builder is told by the operation,
which is the body, and an extractor by the operation's kind. -/
def service (send : Channel κ σ) : Service (κ × σ) := fun op (k, s) =>
  let (response, k, s) := send (.of (.operation op)) k s
  (response.bind (·.toAnswer op.kind), (k, s))

/-- An attribute of the session at the other end of a channel. -/
def attribute? (send : Channel κ σ) (name : String) (k : κ) (s : σ) :
    Except CallError (Option String) × κ × σ :=
  let (response, k, s) := send (.of (.sessionAttribute name)) k s
  (response.bind (·.toAnswer .text), k, s)

end Channel

/-- A binding to a service of the same process. -/
structure LocalBinding where
  /-- For whom requests are run. -/
  caller : Caller
  /-- Whether the binding is open. -/
  isOpen : Bool := true
  deriving DecidableEq

namespace LocalBinding

variable {σ : Type}

/-- The binding after its end. -/
def close (b : LocalBinding) : LocalBinding := { b with isOpen := false }

/-- Runs a request. The request to end the session closes the binding. -/
def send (service : Service σ) : Channel LocalBinding σ := fun r b s =>
  if b.isOpen then
    let (response, s) := dispatch service b.caller r s
    (.ok response, if r.body = .quit then b.close else b, s)
  else (.error .notConnected, b, s)

end LocalBinding

end RatingServer
