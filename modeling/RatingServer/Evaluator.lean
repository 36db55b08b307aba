import RatingServer.Wire.Record
import RatingServer.Endpoint
import RatingServer.Table

/-!
# Evaluators

A handle to an evaluator that a server offers, with the address at which clients
reach it, and the directory of all evaluators that a server offers, by name.
-/

namespace RatingServer

open Wire

/-- A handle to an evaluator. -/
structure Evaluator where
  /-- The name. -/
  name : String
  /-- The version. -/
  version : String
  /-- The address at which it is reached, if it is bound to one. -/
  bindUri : Option String := none
  deriving DecidableEq, Repr

namespace Evaluator

/-- The format of a handle. -/
def format : Format Evaluator :=
  (((required "name" .string).and <| (required "version" .string).and <|
    Fields.one (.optional "bind_uri" .string)).map
    (fun (a, b, c) => ⟨a, b, c⟩) (fun e => (e.name, e.version, e.bindUri))).format

end Evaluator

/-- The evaluators of a server by name. -/
abbrev EvaluatorDirectory := Table String Evaluator

namespace EvaluatorDirectory

/-- The version of the evaluators that a server names itself. -/
def ownVersion : String := "0.9.0-alpha"

/-- The directory with an evaluator under its name. -/
def register (d : EvaluatorDirectory) (e : Evaluator) : EvaluatorDirectory := d.insert e.name e

/-- The evaluator of a name that is bound at a host and a port. -/
def bound (host : String) (port : UInt16) (name : String) : Evaluator :=
  ⟨name, ownVersion, some (Endpoint.text ⟨.inProcess, host, port, some name⟩)⟩

/-- The directory of evaluators of some names, all bound at a host and a port. -/
def ofNames (names : List String) (host : String) (port : UInt16) : EvaluatorDirectory :=
  names.foldl (fun d name => d.register (bound host port name)) Table.empty

end EvaluatorDirectory

end RatingServer
