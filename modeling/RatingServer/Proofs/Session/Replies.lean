import RatingServer.Connection
import RatingServer.Proofs.Response.Lines
import RatingServer.Proofs.Wire.Framing
import RatingServer.Proofs.Wire.TextLines
import RatingServer.Serving

/-!
# Replies over a stream

The bytes of a reply that is not too long are read by the other end as the response
that they were made of, and a line that arrives whole is answered by the reply of the
session, after which nothing is left of it.
-/

namespace RatingServer

open Wire Json

/-- The response can be sent whole: as a frame below the limit, or as a line below
the limit whose numbers read back. -/
def Response.Sendable (r : Response) (binary : Bool) : Prop :=
  if binary then (format.put r).length ≤ maxFrameLength
  else (utf8 r.encode).length < maxLineLength ∧ ∀ x, r.Carries x → ReadsBack x

namespace Reply

/-- The reply with a frame below the limit is the frame. -/
theorem of_frame {r : Response} (h : (Response.format.put r).length ≤ maxFrameLength)
    (close : Bool) : ∃ frame, Frame.encode Response.format r = .ok frame ∧
      Reply.of r true close = ⟨frame, close⟩ := by
  have hframe := Frame.encode_of_le h
  have hpos : bigEndian 4 (Response.format.put r).length ++ Response.format.put r ≠ [] := by
    intro hnil
    have hlength := congrArg List.length hnil
    rw [List.length_append, length_bigEndian, List.length_nil] at hlength
    omega
  refine ⟨_, hframe, ?_⟩
  unfold Reply.of encode
  rw [if_pos rfl, hframe]
  simp only [List.isEmpty_eq_false_iff.mpr hpos, Bool.or_false]

/-- A response that has a frame is short enough for it. -/
theorem length_of_encode {r : Response} {bytes : Bytes} (h : encode r true = .ok bytes) :
    (Response.format.put r).length ≤ maxFrameLength := by
  unfold encode Frame.encode at h
  rw [if_pos rfl] at h
  dsimp only at h
  split at h
  · assumption
  · cases h

/-- A response that is too long gives way to the failure that says so. -/
theorem of_error {r : Response} {binary : Bool} {e : CallError} {bytes : Bytes}
    (hencode : encode r binary = .error e)
    (htold : encode (.failure (.internal e.message)) binary = .ok bytes) (close : Bool) :
    Reply.of r binary close = Reply.of (.failure (.internal e.message)) binary close := by
  unfold Reply.of
  rw [hencode]
  dsimp only
  rw [htold]

/-- A reply that is asked for as a frame is that of a response with a frame below the
limit, or nothing. -/
theorem of_binary (r : Response) (close : Bool) :
    (∃ r', (Response.format.put r').length ≤ maxFrameLength ∧
      Reply.of r true close = Reply.of r' true close) ∨ (Reply.of r true close).bytes = [] := by
  cases hencode : encode r true with
  | ok bytes => exact .inl ⟨r, length_of_encode hencode, rfl⟩
  | error e =>
    cases htold : encode (.failure (.internal e.message)) true with
    | ok bytes =>
      exact .inl ⟨.failure (.internal e.message), length_of_encode htold,
        of_error hencode htold close⟩
    | error e' =>
      refine .inr ?_
      unfold Reply.of
      rw [hencode]
      dsimp only
      rw [htold]

/-- The reply with a line is the line and a newline. -/
theorem of_line (r : Response) (close : Bool) :
    Reply.of r false close = ⟨utf8 r.encode ++ [newline], close⟩ := by
  have hpos : utf8 r.encode ++ [newline] ≠ [] := List.append_ne_nil_of_right_ne_nil _ (by simp)
  have hline : encode r false = .ok (utf8 r.encode ++ [newline]) := by
    unfold encode
    rw [if_neg (by decide), utf8_line]
  unfold Reply.of
  rw [hline]
  simp only [List.isEmpty_eq_false_iff.mpr hpos, Bool.or_false]

end Reply

namespace Stream

variable {π : Type}

/-- A line that arrived whole is read with its newline. -/
theorem readLine_line {text : String} (hnewline : newline ∉ utf8 text)
    (hlength : (utf8 text).length < maxLineLength) (peer : Option π) (rest : Bytes) :
    readLine { peer, incoming := utf8 text ++ newline :: rest } =
      (.ok (text ++ "\n"), { peer, incoming := rest }) := by
  have hfirst : firstLine (maxLineLength + 1) (utf8 text ++ newline :: rest) =
      utf8 text ++ [newline] :=
    firstLine_line hnewline (by omega) rest
  have hdrop : (utf8 text ++ newline :: rest).drop (utf8 text ++ [newline]).length = rest := by
    have hsplit : utf8 text ++ newline :: rest = utf8 text ++ [newline] ++ rest := by
      rw [List.append_assoc, List.singleton_append]
    rw [hsplit, List.drop_left]
  have htext : ofUtf8? (utf8 text ++ [newline]) = some (text ++ "\n") := by
    rw [← utf8_line, ofUtf8?_utf8]
  have hlast : (utf8 text ++ [newline]).getLast? = some newline := List.getLast?_concat
  have hempty : (utf8 text ++ [newline]).isEmpty = false := by
    rw [List.isEmpty_eq_false_iff]
    exact List.append_ne_nil_of_right_ne_nil _ (by simp)
  have hshort : ¬ maxLineLength < (utf8 text ++ [newline]).length := by
    rw [List.length_append, List.length_singleton]
    omega
  unfold readLine
  dsimp only
  rw [hfirst, hdrop, htext]
  simp only [hlast, hempty, if_neg hshort]
  rfl

/-- The error at a line that is too long. The reader stops one byte above the limit, and
what it has read by then need not be the text of whole characters. -/
def longLineError (text : String) : CallError :=
  if (ofUtf8? ((utf8 (text ++ "\n")).take (maxLineLength + 1))).isSome then .replyTooLong
  else .couldNotReceive

/-- A line that is too long is not read. -/
theorem readLine_long {text : String} (hlow : ∀ c ∈ text.toList, 0x20 ≤ c.toNat)
    (hlength : maxLineLength ≤ (utf8 text).length) (peer : Option π) (rest : Bytes) :
    (readLine { peer, incoming := utf8 text ++ newline :: rest }).1 =
      .error (longLineError text) := by
  have hfirst : firstLine (maxLineLength + 1) (utf8 text ++ newline :: rest) =
      (utf8 (text ++ "\n")).take (maxLineLength + 1) := by
    rw [firstLine_long (newline_not_mem_utf8 hlow) (Nat.add_le_add_right hlength 1), utf8_line]
  have hlong : ((utf8 (text ++ "\n")).take (maxLineLength + 1)).length = maxLineLength + 1 := by
    refine List.length_take_of_le ?_
    rw [utf8_line, List.length_append, List.length_singleton]
    exact Nat.add_le_add_right hlength 1
  have hempty : ((utf8 (text ++ "\n")).take (maxLineLength + 1)).isEmpty = false :=
    List.isEmpty_eq_false_iff.mpr (List.ne_nil_of_length_eq_add_one hlong)
  unfold readLine longLineError
  dsimp only
  rw [hfirst, hlong, hempty]
  cases ofUtf8? ((utf8 (text ++ "\n")).take (maxLineLength + 1)) with
  | none => simp
  | some line => simp

/-- After a line that is too long nobody knows where the next reply begins. -/
theorem inStep_longLineError (text : String) :
    Connection.inStep false (.error (longLineError text)) = false := by
  unfold longLineError
  split <;> rfl

/-- The reply with a line below the limit is read as what the line says, and the bytes
after it are left. -/
theorem readResponse_short {r : Response} (h : (utf8 r.encode).length < maxLineLength)
    (close : Bool) (peer : Option π) (rest : Bytes) :
    readResponse false { peer, incoming := (Reply.of r false close).bytes ++ rest } =
      ((Response.decode (r.encode ++ "\n")).mapError .couldNotDecode,
        { peer, incoming := rest }) := by
  rw [Reply.of_line, List.append_assoc, List.singleton_append]
  unfold readResponse
  rw [if_neg (by decide), readLine_line (newline_not_mem_utf8 r.encode_not_low) h]

/-- The reply with a line that is too long is not read. -/
theorem readResponse_long {r : Response} (h : maxLineLength ≤ (utf8 r.encode).length)
    (close : Bool) (peer : Option π) (rest : Bytes) :
    (readResponse false { peer, incoming := (Reply.of r false close).bytes ++ rest }).1 =
      .error (longLineError r.encode) := by
  have hlong := readLine_long r.encode_not_low h peer rest
  rw [Reply.of_line, List.append_assoc, List.singleton_append]
  unfold readResponse
  rw [if_neg (by decide)]
  rcases hread : readLine { peer, incoming := utf8 r.encode ++ newline :: rest } with ⟨line, st⟩
  rw [hread] at hlong
  cases hlong
  rfl

/-- The reply with a response that can be sent is read as the response, and the bytes
after it are left. -/
theorem readResponse_reply {r : Response} {binary : Bool} (h : r.Sendable binary)
    (close : Bool) (peer : Option π) (rest : Bytes) :
    (Reply.of r binary close).close = close ∧
      readResponse binary { peer, incoming := (Reply.of r binary close).bytes ++ rest } =
        (.ok r.reset, { peer, incoming := rest }) := by
  cases binary with
  | true =>
    obtain ⟨frame, hframe, hreply⟩ := Reply.of_frame (r := r) h close
    rw [hreply]
    refine ⟨rfl, ?_⟩
    unfold readResponse
    rw [if_pos rfl, Frame.read_encode Response.delimited hframe]
  | false =>
    obtain ⟨hlength, hback⟩ := h
    refine ⟨by rw [Reply.of_line], ?_⟩
    rw [readResponse_short hlength, Response.decode_line hback]
    rfl

/-- Any reply of the kind that was asked for: the stream then stands at the end of the
reply, or nothing is left of it to read from. -/
theorem readResponse_any (r : Response) (binary close : Bool) (peer : Option π)
    (h : Connection.inStep binary
      (readResponse binary { peer, incoming := (Reply.of r binary close).bytes }).1 = true) :
    (Reply.of r binary close).close = close ∧
      (readResponse binary { peer, incoming := (Reply.of r binary close).bytes }).2 = { peer } := by
  cases binary with
  | true =>
    obtain ⟨r', hshort, hreply⟩ | hnil := Reply.of_binary r close
    · have hsend : r'.Sendable true := hshort
      have hread := readResponse_reply hsend close peer []
      rw [List.append_nil] at hread
      rw [hreply, hread.2]
      exact ⟨hread.1, rfl⟩
    · rw [hnil] at h
      cases h
  | false =>
    refine ⟨by rw [Reply.of_line], ?_⟩
    by_cases hlength : (utf8 r.encode).length < maxLineLength
    · have hread := readResponse_short hlength close peer []
      rw [List.append_nil] at hread
      rw [hread]
    · have hread := readResponse_long (Nat.not_lt.mp hlength) close peer []
      rw [List.append_nil] at hread
      rw [hread, inStep_longLineError] at h
      cases h

/-- A line that comes where a frame was asked for makes no sense as one. -/
theorem readResponse_line (r : Response) (close : Bool) (peer : Option π) :
    Connection.inStep true
      (readResponse true { peer, incoming := (Reply.of r false close).bytes }).1 = false := by
  obtain ⟨e, he⟩ := Frame.read_line (f := Response.format) r.encode_not_low
  rw [Reply.of_line, ← utf8_line]
  unfold readResponse
  rw [if_pos rfl]
  dsimp only
  rw [he]
  cases e <;> rfl

end Stream

namespace ServedConnection

variable {ℓ : Type} [Listener ℓ]

/-- A served connection as the other end of a stream. -/
def peer : Peer ServedConnection (Server ℓ) := fun bs c v => c.receive v bs

/-- What a line says does not depend on a carriage return at its end. -/
theorem handleLine_carriageReturn (s : Session) (v : Server ℓ) (text : String) :
    s.handleLine v (text ++ "\r") = s.handleLine v text := by
  have htrim : Text.trim (text ++ "\r").toList = Text.trim text.toList := by
    rw [String.toList_append]
    exact Text.trim_concat rfl text.toList
  unfold Session.handleLine Request.decode
  rw [htrim]

/-- A line is passed over if it is blank, and answered by the session if not. -/
theorem takeLine_text (s : Session) (v : Server ℓ) {text : String}
    (hlength : (utf8 text).length ≤ maxLineLength) :
    takeLine s v (utf8 text) =
      if (Text.trim text.toList).isEmpty then ([], some s, v)
      else ((s.handleLine v text).1.bytes,
        if (s.handleLine v text).1.close then none else some (s.handleLine v text).2.1,
        (s.handleLine v text).2.2) := by
  obtain ⟨line, hline, hsame⟩ := lineText?_any text
  have hshort : ¬ maxLineLength < (utf8 text).length := by omega
  unfold takeLine
  rw [if_neg hshort, hline]
  rcases hsame with rfl | rfl
  · rfl
  · rw [handleLine_carriageReturn, String.toList_append]
    dsimp only
    rw [← Text.trim_concat (rfl : Text.isBlank '\r' = true) line.toList]
    rfl

/-- A line that arrives whole is answered by the session, and nothing is left of it. -/
theorem receive_line (s : Session) (v : Server ℓ) {text : String}
    (hlow : ∀ c ∈ text.toList, 0x20 ≤ c.toNat) (hblank : Text.trim text.toList ≠ [])
    (hlength : (utf8 text).length ≤ maxLineLength) :
    receive { session := s } v (utf8 (text ++ "\n")) =
      ((s.handleLine v text).1.bytes,
        if (s.handleLine v text).1.close then none
        else some { session := (s.handleLine v text).2.1 }, (s.handleLine v text).2.2) := by
  unfold receive
  dsimp only
  rw [List.nil_append, splitLines_text hlow]
  dsimp only
  rw [takeLines, takeLine_text s v hlength, List.isEmpty_eq_false_iff.mpr hblank,
    if_neg Bool.false_ne_true]
  cases (s.handleLine v text).1.close with
  | true => rfl
  | false =>
    simp only [Bool.false_eq_true, if_false, takeLines, List.append_nil]
    rfl

/-- At a line that is too long the session ends. -/
theorem receive_long (s : Session) (v : Server ℓ) {text : String}
    (hlow : ∀ c ∈ text.toList, 0x20 ≤ c.toNat) (hlength : maxLineLength < (utf8 text).length) :
    receive { session := s } v (utf8 (text ++ "\n")) = ([], none, v) := by
  unfold receive
  dsimp only
  rw [List.nil_append, splitLines_text hlow]
  dsimp only
  rw [takeLines, takeLine, if_pos hlength]
  rfl

end ServedConnection

end RatingServer
