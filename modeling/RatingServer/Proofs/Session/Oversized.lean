import Mathlib.Data.Nat.Digits.Defs
import RatingServer.Proofs.Response.Lines
import RatingServer.Proofs.Session.Replies

/-!
# Replies that are too long

A response whose frame would be too long is replaced by a failure that says so, and
the failure always fits into a frame. A response whose line is too long is written all
the same, and the reader gives up in the midst of it. So every reply by frame arrives,
with the response or with the failure, and a reply by line arrives only if it is below
the limit.
-/

namespace RatingServer

open Wire Json

namespace Response

/-- What is told in place of a response that is too long for a frame. -/
def excuse (r : Response) : Response :=
  .failure (.internal (CallError.frameTooLong (format.put r).length).message)

/-- A number of 64 bits has at most twenty digits. -/
theorem length_repr_le {n : Nat} (h : n < UInt64.size) : n.repr.toList.length ≤ 20 := by
  have hpower : UInt64.size ≤ 10 ^ 20 := by norm_num [UInt64.size]
  rw [Nat.repr, String.toList_ofList]
  exact Nat.toDigits_length 10 n 20 (Nat.succ_pos 19) (Nat.lt_of_lt_of_le h hpower)

/-- The text of the excuse is short, for it tells the length of bytes in a memory. -/
theorem length_message_le {n : Nat} (h : n < UInt64.size) :
    (utf8 (CallError.frameTooLong n).message).length ≤ 308 := by
  have hmessage : (CallError.frameTooLong n).message = "could not send RPC request: " ++
      ("frame of " ++ n.repr ++ " bytes exceeds limit") := rfl
  have hwords : "could not send RPC request: ".toList.length = 28 ∧
      "frame of ".toList.length = 9 ∧ " bytes exceeds limit".toList.length = 20 := by decide
  have hdigits := length_repr_le h
  have hbytes := length_utf8_le (CallError.frameTooLong n).message
  rw [hmessage] at hbytes ⊢
  simp only [String.toList_append, List.length_append] at hbytes
  omega

/-- The excuse fits into a frame. -/
theorem length_put_excuse {r : Response} (h : (format.put r).length < UInt64.size) :
    (format.put r.excuse).length ≤ maxFrameLength := by
  have hput : ∀ text : String, format.put (.failure (.internal text)) =
      putCount 15 ++ (putCount 6 ++ (putCount (utf8 text).length ++ utf8 text)) := fun _ => rfl
  have hmax : maxFrameLength = 67108864 := rfl
  have htext := length_message_le h
  have hplace := length_putCount_le 15
  have hkind := length_putCount_le 6
  have hcount := length_putCount_le (utf8 (CallError.frameTooLong (format.put r).length).message).length
  rw [excuse, hput, List.length_append, List.length_append, List.length_append]
  omega

end Response

/-- The reply with a response that is too long for a frame is the reply with its
excuse. -/
theorem Reply.of_excuse {r : Response} (hlong : maxFrameLength < (Response.format.put r).length)
    (hsize : (Response.format.put r).length < UInt64.size) (close : Bool) :
    Reply.of r true close = Reply.of r.excuse true close := by
  have hencode : encode r true = .error (.frameTooLong (Response.format.put r).length) := by
    unfold encode Frame.encode
    rw [if_pos rfl]
    exact if_neg (Nat.not_le.mpr hlong)
  have htold := Frame.encode_of_le (Response.length_put_excuse hsize)
  exact of_error hencode ((if_pos rfl).trans htold) close

/-- A stream on which the reply with a response has arrived, before other bytes. -/
def Stream.withReply {π : Type} (peer : Option π) (r : Response) (binary close : Bool)
    (rest : Bytes) : Stream π where
  peer := peer
  incoming := (Reply.of r binary close).bytes ++ rest

namespace Response

variable {π : Type}

/-- A reply by frame is received as the response or as its excuse. -/
theorem received_by_frame {r : Response} (hsize : (format.put r).length < UInt64.size)
    (close : Bool) (peer : Option π) (rest : Bytes) :
    (Stream.withReply peer r true close rest).readResponse true =
      (.ok (if (format.put r).length ≤ maxFrameLength then r.reset else r.excuse),
        { peer, incoming := rest }) := by
  by_cases hshort : (format.put r).length ≤ maxFrameLength
  · have hsend : r.Sendable true := hshort
    rw [if_pos hshort]
    exact (Stream.readResponse_reply hsend close peer rest).2
  · have hsend : r.excuse.Sendable true := length_put_excuse hsize
    rw [if_neg hshort, Stream.withReply, Reply.of_excuse (Nat.lt_of_not_le hshort) hsize]
    exact (Stream.readResponse_reply hsend close peer rest).2

/-- **What is received of a reply.** A reply by frame is received, whatever the length of
the response: as the response, or if this is too long as a failure that says so. A reply
by line is received exactly if the line is below the limit; then it is the response, if
its numbers are finite and their texts read as these numbers. What is received leaves the
bytes after it to be read next. At a line that is too long the reader stops one byte above
the limit, and the connection is given up. The length of the response is one of bytes in
a memory. -/
theorem received_of_reply (r : Response) (hsize : (format.put r).length < UInt64.size)
    (close : Bool) (peer : Option π) (rest : Bytes) :
    (Stream.withReply peer r true close rest).readResponse true =
        (.ok (if (format.put r).length ≤ maxFrameLength then r.reset else r.excuse),
          { peer, incoming := rest }) ∧
      ((utf8 r.encode).length < maxLineLength →
        ((Stream.withReply peer r false close rest).readResponse false).2 =
            { peer, incoming := rest } ∧
          ((∀ x, r.Carries x → x.isFinite = true) → r.TextsReadBack →
            ((Stream.withReply peer r false close rest).readResponse false).1 = .ok r.reset)) ∧
      (maxLineLength ≤ (utf8 r.encode).length →
        ((Stream.withReply peer r false close rest).readResponse false).1 =
          .error (Stream.longLineError r.encode)) ∧
      ∀ binary, Connection.inStep binary
          ((Stream.withReply peer r binary close rest).readResponse binary).1 = true ↔
        binary = true ∨ (utf8 r.encode).length < maxLineLength := by
  have hframe := received_by_frame hsize close peer rest
  have hline : (utf8 r.encode).length < maxLineLength →
      (Stream.withReply peer r false close rest).readResponse false =
        ((decode (r.encode ++ "\n")).mapError .couldNotDecode, { peer, incoming := rest }) :=
    fun hshort => Stream.readResponse_short hshort close peer rest
  have hlong : maxLineLength ≤ (utf8 r.encode).length →
      ((Stream.withReply peer r false close rest).readResponse false).1 =
        .error (Stream.longLineError r.encode) :=
    fun hlong => Stream.readResponse_long hlong close peer rest
  refine ⟨hframe, fun hshort => ?_, hlong, fun binary => ?_⟩
  · rw [hline hshort]
    refine ⟨rfl, fun hfinite hback => ?_⟩
    rw [decode_line fun x hx => hback x hx (hfinite x hx)]
    rfl
  · cases binary with
    | true =>
      rw [hframe]
      exact ⟨fun _ => .inl rfl, fun _ => rfl⟩
    | false =>
      by_cases hshort : (utf8 r.encode).length < maxLineLength
      · rw [hline hshort]
        refine ⟨fun _ => .inr hshort, fun _ => ?_⟩
        cases decode (r.encode ++ "\n") <;> rfl
      · rw [hlong (Nat.not_lt.mp hshort), Stream.inStep_longLineError]
        exact ⟨nofun, fun h => absurd (h.resolve_left nofun) hshort⟩

/-- A text of one letter as often as a number says. -/
def longText (n : Nat) : Response := .result .text (String.ofList (List.replicate n 'x'))

/-- The line of a long text is longer than the text. -/
theorem length_encode_longText (n : Nat) : n ≤ (utf8 (longText n).encode).length := by
  have hline : ∀ s : String, (Response.result .text s).encode.toList =
      '\x7b' :: (textOf "string_result" ++ ':' :: textOf s) ++ ['\x7d'] := fun s => toList_encode _
  have hchars := length_lt_textOf (String.ofList (List.replicate n 'x'))
  have hbytes := length_le_utf8 (longText n).encode
  rw [String.toList_ofList, List.length_replicate] at hchars
  rw [longText, hline] at hbytes
  simp only [List.length_append, List.length_cons] at hbytes
  rw [longText]
  omega

/-- A long text carries no number. -/
theorem not_carries_longText (n : Nat) (x : Double) : ¬ (longText n).Carries x := nofun

/-- The frame of a long text is longer than the text, but not much longer than four bytes
for each letter. -/
theorem length_put_longText (n : Nat) :
    n ≤ (format.put (longText n)).length ∧ (format.put (longText n)).length ≤ 4 * n + 18 := by
  have hput : ∀ s : String, format.put (.result .text s) =
      putCount 10 ++ (putCount (utf8 s).length ++ utf8 s) := fun _ => rfl
  have hlow := length_le_utf8 (String.ofList (List.replicate n 'x'))
  have hhigh := length_utf8_le (String.ofList (List.replicate n 'x'))
  have hplace := length_putCount_le 10
  have hcount := length_putCount_le (utf8 (String.ofList (List.replicate n 'x'))).length
  rw [String.toList_ofList, List.length_replicate] at hlow hhigh
  rw [longText, hput, List.length_append, List.length_append]
  omega

/-- A text above both limits: by frame its excuse is received, by line nothing is. -/
theorem received_of_reply_longText :
    ((Stream.withReply (some ()) (longText 67108865) true false []).readResponse true).1 =
      .ok (longText 67108865).excuse ∧
    Connection.inStep false
      ((Stream.withReply (some ()) (longText 67108865) false false []).readResponse false).1 =
        false := by
  have hmaxFrame : maxFrameLength = 67108864 := rfl
  have hmaxLine : maxLineLength = 8388608 := rfl
  have hsize : UInt64.size = 18446744073709551616 := rfl
  have hline := length_encode_longText 67108865
  obtain ⟨hlow, hhigh⟩ := length_put_longText 67108865
  obtain ⟨hframe, -, -, hstep⟩ :=
    received_of_reply (longText 67108865) (by omega) false (some ()) []
  refine ⟨?_, ?_⟩
  · rw [hframe, if_neg (by omega)]
  · rw [← Bool.not_eq_true, hstep false]
    rintro (h | h)
    · cases h
    · omega

/-- Not every reply is received as the response or as a failure: a text of as many bytes
as a line may have is written on a line that is too long. -/
theorem not_received_of_reply :
    ¬ ∀ (r : Response) (binary close : Bool), (∀ x, r.Carries x → x.isFinite = true) →
      ∃ told, ((Stream.withReply (some ()) r binary close []).readResponse binary).1 = .ok told ∧
        (told = r.reset ∨ told.isFailure = true) := by
  intro h
  have hlong := length_encode_longText 8388608
  obtain ⟨told, htold, -⟩ := h (longText 8388608) false false
    fun x hx => absurd hx (not_carries_longText 8388608 x)
  have hread := Stream.readResponse_long hlong false (some ()) []
  rw [Stream.withReply, hread] at htold
  cases htold

end Response

end RatingServer
