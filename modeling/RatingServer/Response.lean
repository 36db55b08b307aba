import RatingServer.Failure
import RatingServer.Operation
import RatingServer.Text.Basic
import RatingServer.Json.Basic

/-!
# Responses

A response holds nothing, one result, or a failure. It is sent as one line of
data text or as bytes.
-/

namespace RatingServer

open Wire Json

/-- The answer to a request. -/
inductive Response where
  /-- There is nothing to tell. -/
  | empty
  /-- A result. -/
  | result (kind : ResultKind) (value : kind.Value)
  /-- A failure. -/
  | failure (failure : Failure)

namespace Response

/-- The variant of the results of a kind. -/
def variantOf (kind : ResultKind) : Variant Response :=
  .payload kind.name kind.format (.result kind)

/-- The format of a response. -/
def format : Format Response :=
  .choice (.bareName "empty" empty :: ResultKind.all.map variantOf ++
      [.payload "failure" Failure.format failure])
    fun
    | empty => .bareName 0
    | result kind value => .of (ResultKind.all.idxOf kind + 1) kind.format value
    | failure f => .of 15 Failure.format f

/-- Whether the response holds nothing. -/
def isEmpty : Response → Bool
  | empty => true
  | _ => false

/-- Whether the response is a failure. -/
def isFailure : Response → Bool
  | failure _ => true
  | _ => false

/-- The kind of the result. -/
def kind? : Response → Option ResultKind
  | result kind _ => some kind
  | _ => none

/-- The line of a response. -/
def encode (r : Response) : String := (format.toJson r).compact

/-- Reads the line of a response. -/
def decode (line : String) : Except DecodeFault Response :=
  match Text.trim line.toList with
  | [] => .error .emptyLine
  | text => do
    let (d, clean) := Document.parse text
    let r ← format.ofDocument .stream d
    if clean then return r else .error .malformed

/-- The result of a kind; nothing for an empty response. -/
def expect (kind : ResultKind) : Response → Except CallError (Option kind.Value)
  | empty => .ok none
  | result kind' value =>
    if h : kind' = kind then .ok (some (h ▸ value))
    else .error (.unexpectedReply kind.label kind'.name)
  | failure f => .error (.ofFailure f)

/-- What an operation answered whose result is of a kind. An empty response stands
for a false truth value and for an empty list. -/
def toAnswer (kind : ResultKind) (r : Response) : Except CallError kind.Answer :=
  match kind with
  | .flag => (r.expect .flag).map (·.getD false)
  | .texts => (r.expect .texts).map (·.getD [])
  | .attributes => r.expect .attributes
  | .settings => r.expect .settings
  | .ratingRows => r.expect .ratingRows
  | .profileRows => r.expect .profileRows
  | .idRows => r.expect .idRows
  | .nominals => r.expect .nominals
  | .profile => r.expect .profile
  | .snapshot => r.expect .snapshot
  | .text => r.expect .text
  | .ratings => r.expect .ratings
  | .record => r.expect .record
  | .evaluator => r.expect .evaluator

/-- The response itself, or the error of a failure. -/
def toResult : Response → Except CallError Response
  | failure f => .error (.ofFailure f)
  | r => .ok r

/-- The response for a result that may be absent. -/
def ofOption (kind : ResultKind) : Option kind.Value → Response
  | none => empty
  | some value => result kind value

/-- The response for what an operation answered whose result is of a kind. -/
def ofAnswer (kind : ResultKind) : Except CallError kind.Answer → Response
  | .error e => failure e.toFailure
  | .ok a =>
    match kind with
    | .flag => result .flag a
    | .texts => result .texts a
    | .attributes => ofOption .attributes a
    | .settings => ofOption .settings a
    | .ratingRows => ofOption .ratingRows a
    | .profileRows => ofOption .profileRows a
    | .idRows => ofOption .idRows a
    | .nominals => ofOption .nominals a
    | .profile => ofOption .profile a
    | .snapshot => ofOption .snapshot a
    | .text => ofOption .text a
    | .ratings => ofOption .ratings a
    | .record => ofOption .record a
    | .evaluator => ofOption .evaluator a

end Response

end RatingServer
