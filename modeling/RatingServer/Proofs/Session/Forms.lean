import RatingServer.Proofs.Session.Exchange
import RatingServer.Proofs.Session.Oversized

/-!
# The two forms of a reply

A reply is a line or a frame. A line is data text without a control character in it,
and a newline; a frame is the length of a body in four bytes, and the body. No bytes are
both, for the first byte of a frame below the limit is that of a control character
which no text begins with. Every line that a session gets is answered in one of the two
forms, as a frame exactly if the line is read as a request that asks for one.
-/

namespace RatingServer

open Wire Json

/-- A text is data text: it reads as one value that comes to its end, and nothing else. -/
def Json.IsText (cs : List Char) : Prop := ∃ d, Document.parse cs = (d, true) ∧ d.isWhole = true

/-- The text of a value is data text. -/
theorem Json.isText_chars (j : Json) : IsText j.chars :=
  ⟨j.asRead, parse_anyChars j, isWhole_asRead j⟩

namespace Reply

/-- Bytes in the form of a line: data text without control characters, and a newline. -/
def IsLine (bytes : Bytes) : Prop :=
  ∃ text : String, bytes = utf8 text ++ [newline] ∧ (∀ c ∈ text.toList, 0x20 ≤ c.toNat) ∧
    IsText text.toList

/-- Bytes in the form of a frame: the length of a body, the highest byte first, and the
body. -/
def IsFrame (bytes : Bytes) : Prop :=
  ∃ body : Bytes, body.length ≤ maxFrameLength ∧ bytes = bigEndian 4 body.length ++ body

/-- There is one newline in a line, at its end. -/
theorem IsLine.newline_last {bytes : Bytes} (h : IsLine bytes) :
    ∃ line, bytes = line ++ [newline] ∧ newline ∉ line := by
  obtain ⟨text, hbytes, hlow, -⟩ := h
  exact ⟨utf8 text, hbytes, newline_not_mem_utf8 hlow⟩

/-- A line is not empty. -/
theorem IsLine.ne_nil {bytes : Bytes} (h : IsLine bytes) : bytes ≠ [] := by
  obtain ⟨line, rfl, -⟩ := h.newline_last
  exact List.append_ne_nil_of_right_ne_nil _ (List.cons_ne_nil _ _)

/-- The first byte of a frame is at most four. -/
theorem IsFrame.head {bytes : Bytes} (h : IsFrame bytes) :
    ∃ b bs, bytes = b :: bs ∧ b.toNat ≤ 4 := by
  obtain ⟨body, hlength, rfl⟩ := h
  have hmax : maxFrameLength = 67108864 := rfl
  refine ⟨UInt8.ofNat (body.length / 256 / 256 / 256), _, rfl, ?_⟩
  rw [UInt8.toNat_ofNat']
  omega

/-- A frame is not empty. -/
theorem IsFrame.ne_nil {bytes : Bytes} (h : IsFrame bytes) : bytes ≠ [] := by
  obtain ⟨b, bs, rfl, -⟩ := h.head
  exact List.cons_ne_nil b bs

/-- No bytes are both a line and a frame. -/
theorem IsLine.not_isFrame {bytes : Bytes} (h : IsLine bytes) : ¬ IsFrame bytes := by
  intro hframe
  obtain ⟨text, hbytes, hlow, -⟩ := h
  obtain ⟨b, bs, rfl, hb⟩ := hframe.head
  cases htext : utf8 text with
  | nil =>
    rw [htext] at hbytes
    obtain ⟨rfl, -⟩ := List.cons.inj hbytes
    exact absurd hb (by decide)
  | cons c cs =>
    rw [htext] at hbytes
    obtain ⟨rfl, -⟩ := List.cons.inj hbytes
    have hc := utf8_not_low hlow b (htext ▸ List.mem_cons_self)
    omega

/-- The reply with a line is in the form of one. -/
theorem isLine_of (r : Response) (close : Bool) : IsLine (Reply.of r false close).bytes := by
  rw [of_line]
  refine ⟨r.encode, rfl, r.encode_not_low, ?_⟩
  rw [Response.toList_encode]
  exact isText_chars _

/-- The reply with a frame is in the form of one, and as final as it was to be. -/
theorem isFrame_of {r : Response} (hsize : (Response.format.put r).length < UInt64.size)
    (close : Bool) : IsFrame (Reply.of r true close).bytes ∧ (Reply.of r true close).close = close := by
  have hshort : ∀ told : Response, (Response.format.put told).length ≤ maxFrameLength →
      IsFrame (Reply.of told true close).bytes ∧ (Reply.of told true close).close = close := by
    intro told hlength
    obtain ⟨frame, hframe, hreply⟩ := of_frame hlength close
    rw [Frame.encode_of_le hlength] at hframe
    cases hframe
    rw [hreply]
    exact ⟨⟨_, hlength, rfl⟩, rfl⟩
  by_cases hlength : (Response.format.put r).length ≤ maxFrameLength
  · exact hshort r hlength
  · rw [of_excuse (Nat.lt_of_not_le hlength) hsize]
    exact hshort r.excuse (Response.length_put_excuse hsize)

/-- What a reply to a line has to be. -/
structure Fits (line : String) (reply : Reply) : Prop where
  /-- There is a reply. -/
  nonempty : reply.bytes ≠ []
  /-- It is a line or a frame. -/
  form : IsLine reply.bytes ∨ IsFrame reply.bytes
  /-- It is not both. -/
  apart : IsLine reply.bytes → ¬ IsFrame reply.bytes
  /-- It is a frame exactly if the line is read as a request that asks for one. -/
  frame_iff : IsFrame reply.bytes ↔ ∃ r, Request.decode line = .ok r ∧ r.binary = true
  /-- The connection ends with it exactly if the line is read as a request to end. -/
  close_iff : reply.close = true ↔ ∃ r, Request.decode line = .ok r ∧ r.body = .quit
  /-- A line that is not read is answered with the failure that says so. -/
  fault : ∀ f, Request.decode line = .error f → reply.bytes =
    utf8 (Response.failure (.invalidRequest (CallError.couldNotDecode f).message)).encode ++
      [newline]

/-- A reply in the form that a line asks for fits the line. -/
theorem fits_of {line : String} {told : Response} {binary close : Bool}
    (hsize : binary = true → (Response.format.put told).length < UInt64.size)
    (hbinary : binary = true ↔ ∃ r, Request.decode line = .ok r ∧ r.binary = true)
    (hclose : close = true ↔ ∃ r, Request.decode line = .ok r ∧ r.body = .quit)
    (hfault : ∀ f, Request.decode line = .error f → told = Session.faultTold f) :
    Fits line (Reply.of told binary close) := by
  cases binary with
  | true =>
    obtain ⟨hframe, hkept⟩ := isFrame_of (hsize rfl) close
    refine ⟨hframe.ne_nil, .inr hframe, IsLine.not_isFrame, ?_, ?_, fun f hf => ?_⟩
    · exact ⟨fun _ => hbinary.mp rfl, fun _ => hframe⟩
    · rw [hkept]
      exact hclose
    · obtain ⟨r, hr, -⟩ := hbinary.mp rfl
      rw [hf] at hr
      cases hr
  | false =>
    have hline := isLine_of told close
    refine ⟨hline.ne_nil, .inl hline, IsLine.not_isFrame, ?_, ?_, fun f hf => ?_⟩
    · exact ⟨fun hframe => absurd hframe hline.not_isFrame, fun h => by cases hbinary.mpr h⟩
    · rw [of_line]
      exact hclose
    · rw [of_line, hfault f hf]
      rfl

end Reply

namespace Session

variable {ℓ : Type} [Listener ℓ]

/-- The answer to a line is one whose bytes a memory can hold, if the line is read as a
request that asks for a frame. -/
def InMemory (s : Session) (v : Server ℓ) (line : String) : Prop :=
  ∀ r, Request.decode line = .ok r → r.binary = true →
    (Response.format.put (s.answer v r).1).length < UInt64.size

/-- Whatever the line is, and in every state of the session and of the server, the reply
to a line fits it. A line that is not read leaves both as they are. -/
theorem handleLine_fits {s : Session} {v : Server ℓ} {line : String} (hsize : s.InMemory v line) :
    (s.handleLine v line).1.Fits line ∧
      ∀ f, Request.decode line = .error f → (s.handleLine v line).2 = (s, v) := by
  cases hread : Request.decode line with
  | error f =>
    have hnone : ∀ p : Request → Prop, ¬ ∃ r, Request.decode line = .ok r ∧ p r := by
      rintro p ⟨r, hr, -⟩
      rw [hread] at hr
      cases hr
    have hno : ∀ p : Request → Prop, false = true ↔ ∃ r, Request.decode line = .ok r ∧ p r :=
      fun p => ⟨nofun, fun h => absurd h (hnone p)⟩
    have htold : ∀ f', Request.decode line = .error f' → faultTold f = faultTold f' := by
      intro f' hf
      rw [hread] at hf
      cases hf
      rfl
    have hfits : (Reply.of (faultTold f) false false).Fits line :=
      Reply.fits_of nofun (hno _) (hno _) htold
    rw [handleLine_of_fault hread]
    exact ⟨hfits, fun _ _ => rfl⟩
  | ok r =>
    have hone : ∀ p : Request → Prop, p r ↔ ∃ r', Request.decode line = .ok r' ∧ p r' := by
      intro p
      rw [hread]
      exact ⟨fun h => ⟨r, rfl, h⟩, fun ⟨r', hr, h⟩ => by cases hr; exact h⟩
    rw [handleLine_of_decode hread]
    have hquit : decide (r.body = .quit) = true ↔
        ∃ r', Request.decode line = .ok r' ∧ r'.body = .quit := by
      rw [decide_eq_true_iff]
      exact hone fun r => r.body = .quit
    refine ⟨Reply.fits_of (hsize r hread) (hone fun r => r.binary = true) hquit fun f hf => ?_,
      fun f hf => by cases hf⟩
    rw [hread] at hf
    cases hf

end Session

end RatingServer
