import RatingServer.Proofs.Session.Replies

/-!
# Whole replies

A whole reply is a line of text within the limit with the newline that ends it, or a
frame with all of its body, be it below the limit or not. Whoever reads it in its form
learns what it says. After a line the reader stands at its end, whatever the line says;
after a frame only if the body could be read, and this is just when the connection is
kept.
-/

namespace RatingServer

open Wire

/-- The bytes are a whole reply of a form, and this is what it says. -/
inductive WholeReply : Bool → Bytes → Except CallError Response → Prop where
  /-- A line. -/
  | line (text : String) (hnewline : newline ∉ utf8 text)
      (hlength : (utf8 text).length < maxLineLength) :
      WholeReply false (utf8 text ++ [newline])
        ((Response.decode text).mapError .couldNotDecode)
  /-- A frame. -/
  | frame (header body : Bytes) (hheader : header.length = 4)
      (hbody : ofBigEndian header = body.length) :
      WholeReply true (header ++ body)
        (if maxFrameLength < body.length then
          .error (.couldNotDecode (.frameTooLong body.length))
        else (Frame.decodeBody Response.format body).mapError .couldNotDecode)

namespace WholeReply

variable {π : Type}

/-- A whole frame is read as what it says. The bytes after it are left unless it is too
long, in which case its body is left as well. -/
theorem read_frame {header body : Bytes} (hheader : header.length = 4)
    (hbody : ofBigEndian header = body.length) (rest : Bytes) :
    Frame.read Response.format (header ++ body ++ rest) =
      if maxFrameLength < body.length then
        (.error (.couldNotDecode (.frameTooLong body.length)), body ++ rest)
      else ((Frame.decodeBody Response.format body).mapError .couldNotDecode, rest) := by
  rw [List.append_assoc, Frame.read, take?_append_of_eq hheader]
  dsimp only
  rw [hbody, take?_append]

/-- A whole reply is read as what it says, and if it keeps the reader in step, the bytes
after it are left. -/
theorem readResponse {binary : Bool} {bytes : Bytes} {said : Except CallError Response}
    (h : WholeReply binary bytes said) (peer : Option π) (rest : Bytes) :
    (Stream.readResponse binary { peer, incoming := bytes ++ rest }).1 = said ∧
      (Connection.inStep binary said = true →
        (Stream.readResponse binary { peer, incoming := bytes ++ rest }).2 =
          { peer, incoming := rest }) := by
  cases h with
  | line text hnewline hlength =>
    have hline := Stream.readLine_line hnewline hlength peer rest
    have hread : Stream.readResponse false
        { peer, incoming := utf8 text ++ [newline] ++ rest } =
          ((Response.decode text).mapError .couldNotDecode, { peer, incoming := rest }) := by
      rw [List.append_assoc, List.singleton_append]
      unfold Stream.readResponse
      rw [if_neg (by decide), hline]
      dsimp only
      rw [Response.decode_newline]
    rw [hread]
    exact ⟨rfl, fun _ => rfl⟩
  | frame header body hheader hbody =>
    have hread := read_frame hheader hbody rest
    unfold Stream.readResponse
    rw [if_pos rfl]
    dsimp only
    rw [hread]
    by_cases hlong : maxFrameLength < body.length
    · rw [if_pos hlong, if_pos hlong]
      exact ⟨rfl, nofun⟩
    · rw [if_neg hlong, if_neg hlong]
      exact ⟨rfl, fun _ => rfl⟩

end WholeReply

end RatingServer
