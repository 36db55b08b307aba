import RatingServer.Proofs.Request.Lines
import RatingServer.Proofs.Response.Lines
import RatingServer.Proofs.Session.Replies

/-!
# Streams of mixed replies

Replies by line and replies by frame follow one another on one stream, in any order.
Whoever reads a response for each of them, in the form in which it was asked for, is
always at the beginning of the next reply, whatever bytes the replies are made of, and
at the end nothing is left. A frame brings its response. A line brings what its text
says, and that is its response as far as the texts of its numbers read as the numbers:
the reader of numbers rounds more than once, so that some finite numbers come back as
neighbours of what they were.
-/

namespace RatingServer

open Wire Json

/-- A response that is sent, and the form of its reply. -/
structure Outgoing where
  /-- The response. -/
  response : Response
  /-- Whether the reply is a frame. -/
  binary : Bool
  /-- Whether the connection ends after the reply. -/
  close : Bool := false

namespace Outgoing

/-- The bytes of the reply. -/
def bytes (o : Outgoing) : Bytes := (Reply.of o.response o.binary o.close).bytes

/-- The reply is within the limit of its form. -/
def Fits (o : Outgoing) : Prop :=
  if o.binary then (Response.format.put o.response).length ≤ maxFrameLength
  else (utf8 o.response.encode).length < maxLineLength

instance (o : Outgoing) : Decidable o.Fits :=
  inferInstanceAs (Decidable (if o.binary then
    (Response.format.put o.response).length ≤ maxFrameLength
    else (utf8 o.response.encode).length < maxLineLength))

/-- The numbers of the response are finite. -/
def Finite (o : Outgoing) : Prop := ∀ x, o.response.Carries x → x.isFinite = true

/-- What the reply says to whoever reads it in its form. -/
def received (o : Outgoing) : Except CallError Response :=
  if o.binary then .ok o.response.reset
  else (Response.decode o.response.encode).mapError .couldNotDecode

/-- A reply never says that the stream is out of step. -/
theorem inStep_received (o : Outgoing) : Connection.inStep o.binary o.received = true := by
  unfold received
  cases o.binary with
  | true => rfl
  | false =>
    simp only [Bool.false_eq_true, if_false]
    cases Response.decode o.response.encode <;> rfl

/-- A frame says its response, and so does a line whose numbers read back. -/
theorem received_eq {o : Outgoing} (h : o.binary = true ∨ (o.Finite ∧ o.response.TextsReadBack)) :
    o.received = .ok o.response.reset := by
  unfold received
  rcases h with hframe | ⟨hfinite, hback⟩
  · rw [if_pos hframe]
  · split
    · rfl
    · rw [Response.decode_encode fun x hx => hback x hx (hfinite x hx)]
      rfl

variable {π : Type}

/-- A reply within its limit is read as what it says, and the bytes after it are left. -/
theorem readResponse_bytes {o : Outgoing} (h : o.Fits) (peer : Option π) (rest : Bytes) :
    Stream.readResponse o.binary { peer, incoming := o.bytes ++ rest } =
      (o.received, { peer, incoming := rest }) := by
  obtain ⟨r, binary, close⟩ := o
  unfold bytes received
  cases binary with
  | true =>
    have hsend : r.Sendable true := h
    exact (Stream.readResponse_reply hsend close peer rest).2
  | false =>
    have hshort : (utf8 r.encode).length < maxLineLength := h
    have hread := Stream.readResponse_short hshort close peer rest
    rwa [Response.decode_newline] at hread

end Outgoing

namespace Stream

variable {π : Type}

/-- Reads a response for each form that is given, one after another. -/
def readResponses (st : Stream π) : List Bool → List (Except CallError Response) × Stream π
  | [] => ([], st)
  | binary :: binaries =>
    let (response, st) := st.readResponse binary
    let (responses, st) := st.readResponses binaries
    (response :: responses, st)

/-- To read more means to read the first response and then the others. -/
theorem readResponses_cons {st st' st'' : Stream π} {binary : Bool} {binaries : List Bool}
    {response : Except CallError Response} {responses : List (Except CallError Response)}
    (hfirst : st.readResponse binary = (response, st'))
    (hothers : st'.readResponses binaries = (responses, st'')) :
    st.readResponses (binary :: binaries) = (response :: responses, st'') := by
  simp only [readResponses, hfirst, hothers]

/-- Replies within their limits are read as what they say, and the bytes after the last of
them are left. -/
theorem readResponses_bytes {os : List Outgoing} (hfits : ∀ o ∈ os, o.Fits) (peer : Option π)
    (rest : Bytes) :
    readResponses { peer, incoming := os.flatMap Outgoing.bytes ++ rest }
        (os.map Outgoing.binary) = (os.map Outgoing.received, { peer, incoming := rest }) := by
  -- Each reply is read before the replies after it, which are so many bytes that follow.
  induction os with
  | nil => rfl
  | cons o os ih =>
    have hfirst := Outgoing.readResponse_bytes (hfits o List.mem_cons_self) peer
      (os.flatMap Outgoing.bytes ++ rest)
    have hothers := ih fun o' ho' => hfits o' (List.mem_cons_of_mem _ ho')
    rw [List.flatMap_cons, List.append_assoc]
    exact readResponses_cons hfirst hothers

/-- **Mixed replies stay in step.** From the bytes of any replies, lines and frames in any
order and each within the limit of its form, one response is read for each reply in its
form, whatever bytes come after them: exactly what each reply says, in order, and just the
bytes after the last reply are left. None of them says that the stream is out of step. A
reply by frame says its response with every cursor before its first row, and so does a
reply by line if the texts of its finite numbers read as these numbers. -/
theorem replies_in_step (os : List Outgoing) (hfits : ∀ o ∈ os, o.Fits) (peer : Option π)
    (rest : Bytes) :
    readResponses { peer, incoming := os.flatMap Outgoing.bytes ++ rest }
        (os.map Outgoing.binary) = (os.map Outgoing.received, { peer, incoming := rest }) ∧
      (∀ o ∈ os, Connection.inStep o.binary o.received = true) ∧
      ∀ o ∈ os, o.binary = true ∨ (o.Finite ∧ o.response.TextsReadBack) →
        o.received = .ok o.response.reset :=
  ⟨readResponses_bytes hfits peer rest, fun o _ => o.inStep_received,
    fun _ _ => Outgoing.received_eq⟩

/-- A text that looks like a line and holds a newline, by frame; a rating, by line; and rows
of which the first was handed out, by frame. -/
def mixture : List Outgoing :=
  [{ response := .result .text "\"empty\"\n", binary := true },
    { response := .result .ratings Response.sampleRatings, binary := false },
    { response := .result .idRows ⟨[10, -5], 1⟩, binary := true, close := true }]

/-- The mixture is read in step. -/
theorem replies_in_step_mixture :
    (∀ o ∈ mixture, o.Fits) ∧
      readResponses { peer := some (), incoming := mixture.flatMap Outgoing.bytes }
          (mixture.map Outgoing.binary) =
        ([.ok (.result .text "\"empty\"\n"), .ok (.result .ratings Response.sampleRatings),
            .ok (.result .idRows ⟨[10, -5], 0⟩)], { peer := some () }) := by
  have hfits : ∀ o ∈ mixture, o.Fits := by decide +kernel
  obtain ⟨hread, -, hsaid⟩ := replies_in_step mixture hfits (some ()) []
  rw [List.append_nil] at hread
  have hnumbers : (Response.format.toJson (.result .ratings Response.sampleRatings)).numbers =
      [.integer 7, .integer 1, .real 4.5, .integer 12] := by decide +kernel
  have hback : ∀ x, (Response.result .ratings Response.sampleRatings).Carries x → ReadsBack x :=
    fun x hx => Request.readsBack_sample hnumbers (by simp) hx
  have hline := hsaid _ (List.mem_cons_of_mem _ List.mem_cons_self)
    (.inr ⟨fun x hx => (hback x hx).isFinite, fun x hx _ => hback x hx⟩)
  refine ⟨hfits, ?_⟩
  rw [hread]
  simp only [mixture, List.map_cons, List.map_nil]
  rw [hline]
  rfl

/-- The mean of eleven ratings, as the only rating of a user. -/
def meanRating : Response :=
  .result .ratings ⟨7, .user, Table.empty.insert 1 ⟨1.1818181818181819, none⟩⟩

/-- Finite numbers do not make a line say its response: the mean of eleven ratings is read
as its neighbour. -/
theorem line_alters_mean :
    ¬ ∀ os : List Outgoing, (∀ o ∈ os, o.Fits ∧ o.Finite) →
      readResponses { peer := some (), incoming := os.flatMap Outgoing.bytes }
          (os.map Outgoing.binary) =
        (os.map fun o => .ok o.response.reset, { peer := some () }) := by
  intro hall
  have hsent : (Response.format.toJson meanRating).numbers =
      [.integer 7, .integer 1, .real 1.1818181818181819] := by decide +kernel
  have hread : (Response.decode meanRating.encode).toOption.map
      (fun r => (Response.format.toJson r).numbers) =
        some [.integer 7, .integer 1, .real 1.181818181818182] := by decide +kernel
  have hfinite : Outgoing.Finite { response := meanRating, binary := false } := by
    intro x hx
    have hx' : Decimal.Number.real x ∈ (Response.format.toJson meanRating).numbers := hx
    rw [hsent] at hx'
    have hvalue : x = 1.1818181818181819 := by simpa using hx'
    rw [hvalue]
    decide +kernel
  have hfits : Outgoing.Fits { response := meanRating, binary := false } := by decide +kernel
  have hall' := hall [{ response := meanRating, binary := false }]
    (by simpa using ⟨hfits, hfinite⟩)
  have hstep : readResponses _ _ = _ := readResponses_bytes (List.forall_mem_singleton.mpr hfits)
    (some ()) []
  rw [List.append_nil, hall'] at hstep
  have hsame : Except.ok meanRating.reset = (Response.decode meanRating.encode).mapError
      CallError.couldNotDecode := (List.cons.inj (Prod.mk.inj hstep).1).1
  cases hdecode : Response.decode meanRating.encode with
  | error e =>
    rw [hdecode] at hread
    cases hread
  | ok r =>
    rw [hdecode] at hsame hread
    obtain rfl : meanRating.reset = r := Except.ok.inj hsame
    revert hread
    decide +kernel

end Stream

end RatingServer
