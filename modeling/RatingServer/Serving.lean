import RatingServer.Session
import RatingServer.Wire.Bytes

/-!
# Serving connections

A server reads a connection line by line, answers each line that is not blank, and
hangs up after the reply to a request to end the session, and at a line that is
too long or is no text.
-/

namespace RatingServer

open Wire

/-- A connection that a server serves. -/
structure ServedConnection where
  /-- The session. -/
  session : Session
  /-- What has been read of the current line. -/
  unread : Bytes := []
  deriving DecidableEq

namespace ServedConnection

variable {ℓ : Type}

/-- Answers a line. The connection is over if there is none afterwards. -/
def takeLine [Listener ℓ] (session : Session) (v : Server ℓ) (line : Bytes) :
    Bytes × Option Session × Server ℓ :=
  if maxLineLength < line.length then ([], none, v)
  else
    match lineText? line with
    | none => ([], none, v)
    | some text =>
      if (Text.trim text.toList).isEmpty then ([], some session, v)
      else
        let (reply, session, v) := session.handleLine v text
        (reply.bytes, if reply.close then none else some session, v)

/-- Answers lines until the connection is over. -/
def takeLines [Listener ℓ] (session : Session) (v : Server ℓ) :
    List Bytes → Bytes × Option Session × Server ℓ
  | [] => ([], some session, v)
  | line :: lines =>
    match takeLine session v line with
    | (bytes, none, v) => (bytes, none, v)
    | (bytes, some session, v) =>
      let (more, session, v) := takeLines session v lines
      (bytes ++ more, session, v)

/-- Takes bytes that arrive, and answers with the bytes that go back. -/
def receive [Listener ℓ] (c : ServedConnection) (v : Server ℓ) (bs : Bytes) :
    Bytes × Option ServedConnection × Server ℓ :=
  let (lines, unread) := splitLines (c.unread ++ bs)
  let (bytes, session, v) := takeLines c.session v lines
  (bytes,
    if maxLineLength < unread.length then none else session.map fun session => { session, unread },
    v)

/-- The other end sends no more; what it sent after the last line counts as one. -/
def finish [Listener ℓ] (c : ServedConnection) (v : Server ℓ) : Bytes × Server ℓ :=
  if c.unread.isEmpty || c.unread = [carriageReturn] then ([], v)
  else
    let (bytes, _, v) := takeLine c.session v c.unread
    (bytes, v)

/-- Serves a connection over which bytes arrive in pieces, until it is over or the other
end sends no more. -/
def serve [Listener ℓ] (c : ServedConnection) (v : Server ℓ) : List Bytes → Bytes × Server ℓ
  | [] => c.finish v
  | piece :: pieces =>
    match c.receive v piece with
    | (bytes, none, v) => (bytes, v)
    | (bytes, some c, v) =>
      let (more, v) := serve c v pieces
      (bytes ++ more, v)

end ServedConnection

end RatingServer
