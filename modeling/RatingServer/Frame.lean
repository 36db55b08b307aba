import RatingServer.Failure

/-!
# Frames

A frame is the length of a body as four bytes, highest byte first, and the body.
A body above the limit is neither sent nor read.
-/

namespace RatingServer

open Wire

/-- The longest body of a frame. -/
def maxFrameLength : Nat := 64 * 1024 * 1024

/-- The longest line, in bytes. -/
def maxLineLength : Nat := 8 * 1024 * 1024

namespace Frame

variable {α : Type}

/-- The frame of a value. -/
def encode (f : Format α) (a : α) : Except CallError Bytes :=
  let body := f.put a
  if body.length ≤ maxFrameLength then .ok (bigEndian 4 body.length ++ body)
  else .error (.frameTooLong body.length)

/-- Reads the body of a frame; bytes after the value do not matter. -/
def decodeBody (f : Format α) (body : Bytes) : Except DecodeFault α :=
  match f.get body with
  | some (a, _) => .ok a
  | none => .error .malformed

/-- Reads the frame at the start of a stream of bytes that ends after them, and
answers with the bytes that are left. -/
def read (f : Format α) (bs : Bytes) : Except CallError α × Bytes :=
  match take? 4 bs with
  | none => (.error .couldNotReceive, [])
  | some (header, bs) =>
    let length := ofBigEndian header
    if maxFrameLength < length then (.error (.couldNotDecode (.frameTooLong length)), bs)
    else
      match take? length bs with
      | none => (.error .couldNotReceive, [])
      | some (body, bs) => ((decodeBody f body).mapError .couldNotDecode, bs)

end Frame

end RatingServer
