import RatingServer.Connection

/-!
# Scripted peers

A peer that answers from a script: each line that it receives with the next reply,
whatever the line says. It serves one connection after another from the same script,
and keeps the lines that it received on each.
-/

namespace RatingServer

open Wire

/-- A reply of a script. -/
structure ScriptedReply where
  /-- The bytes. -/
  bytes : Bytes
  /-- Whether the peer hangs up after them. -/
  hangsUp : Bool
  deriving DecidableEq, Repr

/-- A script, and how far it has been played. -/
structure Script where
  /-- The replies to come. -/
  replies : List ScriptedReply
  /-- The lines received on each connection. -/
  received : List (List String) := []
  deriving DecidableEq, Repr

/-- The end of a connection that plays from a script. -/
structure ScriptedEnd where
  /-- The number of the connection. -/
  number : Nat
  /-- What has been received of the current line. -/
  unread : Bytes := []
  deriving DecidableEq, Repr

namespace Script

/-- Notes a line that was received on a connection. -/
def note (s : Script) (number : Nat) (line : String) : Script :=
  { s with received := s.received.modify number (· ++ [line]) }

/-- Answers lines until the peer hangs up, which it also does when it has no reply. -/
def answer (s : Script) (number : Nat) : List Bytes → Bytes × Bool × Script
  | [] => ([], true, s)
  | line :: lines =>
    let s := s.note number ((ofUtf8? line).getD "")
    match s.replies with
    | [] => ([], false, s)
    | r :: replies =>
      let s := { s with replies }
      if r.hangsUp then (r.bytes, false, s)
      else
        let (more, stays, s) := answer s number lines
        (r.bytes ++ more, stays, s)

/-- The peer of a script. -/
def peer : Peer ScriptedEnd Script := fun bs p s =>
  let (lines, unread) := splitLines (p.unread ++ bs)
  let (bytes, stays, s) := s.answer p.number lines
  (bytes, if stays then some { p with unread } else none, s)

/-- Opens a stream to the peer, whatever the address. -/
def dial : Dial ScriptedEnd Script := fun _ s =>
  (.ok { number := s.received.length }, { s with received := s.received ++ [[]] })

end Script

end RatingServer
