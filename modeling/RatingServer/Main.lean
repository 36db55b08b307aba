import RatingServer.Launch

/-!
# The program

Launches a server by its command line, and serves one connection to the socket of
its service over the standard streams.
-/

namespace RatingServer.Program

open CommandLine Wire

/-- Reads the configuration file, if there is one. -/
def readConfig (options : ServerOptions) : IO (Option String) := do
  match options.configFile with
  | none => return none
  | some path =>
    try return some (← IO.FS.readFile path)
    catch _ => return none

/-- Writes bytes to the standard output. -/
def reply (bytes : Bytes) : IO Unit := do
  let output ← IO.getStdout
  output.write ⟨bytes.toArray⟩
  output.flush

/-- Serves a connection until it is over or the server has left. -/
def serve (launched : Launched) (client : ServedBy) : IO Unit := do
  let input ← IO.getStdin
  let mut l := launched
  let mut p := client
  repeat
    let read ← input.read 65536
    if read.isEmpty then break
    let (bytes, next, network) := Network.serve read.toList p l.network
    reply bytes
    l := { l with network }
    match next with
    | some next => p := next
    | none => return
    if l.isOver then return
  let (bytes, _) := l.network.cluster.onServer p.server p.connection.finish []
  reply bytes

/-- Runs the program, and answers the code with which it ends. -/
def run (words : List String) : IO UInt32 := do
  match ServerOptions.read words with
  | .error usage => return UInt32.ofNat usage.exitCode
  | .ok options =>
    match options.launch? (← readConfig options) with
    | none =>
      IO.eprintln "the configuration file does not read"
      return 1
    | some config =>
      match config.launch with
      | .error e =>
        IO.eprintln e.message
        return 1
      | .ok launched =>
        match Network.dial config.serviceAddress launched.network with
        | (.error e, _) =>
          IO.eprintln e.message
          return 1
        | (.ok client, network) =>
          serve { launched with network } client
          return 0

end RatingServer.Program

/-- The entry of the program. -/
def main (words : List String) : IO UInt32 := RatingServer.Program.run words
