import RatingServer.Proofs.Json.Bounded
import RatingServer.Proofs.Json.Reading
import RatingServer.Proofs.Request.Lines
import RatingServer.Proofs.Wire.Values

/-!
# Response lines

The line of a response holds no character below the space, and reads as the
response with every row cursor before its first row, also with the newline that
ends it.

A response that was read has every row cursor before its first row, so that nothing
is lost when it is written and read once more. With the law of the lines of responses
this makes reading a retraction: whatever a line says, the line of what was read says
the same.
-/

namespace RatingServer

open Wire Json

namespace Response

/-- The floating-point number stands in a response. -/
def Carries (r : Response) (x : Double) : Prop := Holds (format.toJson r) x

/-- A response is written as a text or a record. -/
theorem toJson_isMarked (r : Response) : (format.toJson r).isMarked = true :=
  choice_isMarked _ _ r

/-- The characters of the line of a response. -/
theorem toList_encode (r : Response) : r.encode.toList = (format.toJson r).chars :=
  String.toList_ofList

/-- The line of a response holds no character below the space. -/
theorem encode_not_low (r : Response) : ∀ c ∈ r.encode.toList, 0x20 ≤ c.toNat := by
  rw [toList_encode]
  exact chars_not_low _

/-- The value of a response is readable when its numbers read back. -/
theorem readable_toJson {r : Response} (h : ∀ x, r.Carries x → ReadsBack x) :
    (format.toJson r).Readable := by
  intro n hn
  cases n with
  | real x => exact h x hn
  | integer k => exact Response.legible.fits_written r k hn

/-- A line says the same with the newline that ends it. -/
theorem decode_newline (line : String) : decode (line ++ "\n") = decode line := by
  have htrim : Text.trim (line ++ "\n").toList = Text.trim line.toList := by
    rw [String.toList_append]
    exact Text.trim_concat rfl line.toList
  unfold decode
  rw [htrim]

/-- A text that is the line of a response, up to white space around it, reads as the
response with every row cursor before its first row, when its numbers read back. -/
theorem decode_of_trim {r : Response} (h : ∀ x, r.Carries x → ReadsBack x) {line : String}
    (htext : Text.trim line.toList = (format.toJson r).chars) : decode line = .ok r.reset := by
  obtain ⟨c, cs, d, hchars, -, -⟩ := chars_marked r.toJson_isMarked
  have hread := Response.legible.read_written .stream r
  unfold decode
  rw [htext]
  split
  · rename_i hempty
    rw [hchars] at hempty
    cases hempty
  · rw [parse_chars (readable_toJson h)]
    dsimp only
    rw [hread]
    rfl

/-- The line of a response as it is. -/
theorem decode_encode {r : Response} (h : ∀ x, r.Carries x → ReadsBack x) :
    decode r.encode = .ok r.reset :=
  decode_of_trim h (by rw [toList_encode]; exact trim_chars r.toJson_isMarked)

/-- The line of a response with the newline that ends it. -/
theorem decode_line {r : Response} (h : ∀ x, r.Carries x → ReadsBack x) :
    decode (r.encode ++ "\n") = .ok r.reset := by
  rw [decode_newline, decode_encode h]

end Response

/-- Fields that stand for those of another type are read as made of them. -/
theorem Wire.Fields.make_of_read {α β : Type} {f : Fields α} {make : α → β} {view : β → α}
    {src : Source} {d : Document} {b : β}
    (h : (f.map make view).format.ofDocument src d = .ok b) : ∃ a, make a = b := by
  cases d with
  | obj ms whole =>
    change (f.map make view).ofMembers src ms whole = .ok b at h
    unfold ofMembers at h
    obtain ⟨_, -, h⟩ := bind_eq_ok.mp h
    split at h
    · obtain ⟨a, -, hmake⟩ := map_eq_ok.mp h
      exact ⟨a, hmake⟩
    · cases h
  | arr items whole =>
    change (f.map make view).ofItems src items whole = .ok b at h
    unfold ofItems at h
    obtain ⟨⟨b', surplus⟩, htake, h⟩ := bind_eq_ok.mp h
    obtain ⟨⟨a, _⟩, -, hmake⟩ := map_eq_ok.mp htake
    have hb : b' = b := by
      dsimp only at h
      split at h
      · cases h
      · split at h
        · exact Except.ok.inj h
        · cases h
    exact ⟨a, (congrArg Prod.fst hmake).trans hb⟩
  | _ => cases h

/-- A row cursor that was read stands before its first row. -/
theorem RowCursor.reset_of_read {α : Type} {f : Format α} {src : Source} {d : Document}
    {c : RowCursor α} (h : (RowCursor.format f).ofDocument src d = .ok c) : c.reset = c := by
  obtain ⟨rows, rfl⟩ := Fields.make_of_read h
  rfl

/-- A result that was read has its cursor, if it has one, before the first row. -/
theorem ResultKind.reset_of_read {kind : ResultKind} {src : Source} {d : Document}
    {value : kind.Value} (h : kind.format.ofDocument src d = .ok value) :
    kind.reset value = value := by
  cases kind with
  | ratingRows => exact RowCursor.reset_of_read h
  | profileRows => exact RowCursor.reset_of_read h
  | idRows => exact RowCursor.reset_of_read h
  | attributes | flag | settings | nominals | profile | snapshot | text | texts | ratings
  | record | evaluator => rfl

namespace Response

/-- A response that was read has every row cursor before its first row. -/
theorem reset_of_read {src : Source} {d : Document} {r : Response}
    (h : format.ofDocument src d = .ok r) : r.reset = r := by
  rcases mem_of_readChoice h with ⟨v, hv, hbare⟩ | ⟨v, hv, ms, whole, -, m, -, hread⟩
  · rw [List.mem_append, List.mem_cons, List.mem_map, List.mem_singleton] at hv
    rcases hv with (rfl | ⟨kind, -, rfl⟩) | rfl
    · cases hbare
      rfl
    · cases hbare
    · cases hbare
  · rw [List.mem_append, List.mem_cons, List.mem_map, List.mem_singleton] at hv
    rcases hv with (rfl | ⟨kind, -, rfl⟩) | rfl
    · change Variant.noPayload empty src m.2 = .ok r at hread
      unfold Variant.noPayload at hread
      split at hread <;> cases hread <;> rfl
    · obtain ⟨value, hvalue, rfl⟩ := map_eq_ok.mp hread
      exact congrArg (result kind) (ResultKind.reset_of_read hvalue)
    · obtain ⟨f, -, rfl⟩ := map_eq_ok.mp hread
      rfl

/-- A line that was decoded holds a document that reads as the response. -/
theorem exists_document_of_decode {line : String} {r : Response} (h : decode line = .ok r) :
    ∃ text, format.ofDocument .stream (Document.parse text).1 = .ok r := by
  unfold decode at h
  split at h
  · cases h
  · rename_i text htext
    dsimp only at h
    obtain ⟨r', hread, h⟩ := bind_eq_ok.mp h
    split at h
    · cases h
      exact ⟨_, hread⟩
    · cases h

/-- A response that was decoded carries only finite numbers. -/
theorem isFinite_of_decode {line : String} {r : Response} (h : decode line = .ok r) {x : Double}
    (hx : r.Carries x) : x.isFinite = true := by
  obtain ⟨text, hread⟩ := exists_document_of_decode h
  obtain ⟨n, hn, hvalue⟩ := Response.legible.shown_read .stream _ r hread x hx
  rw [← hvalue]
  exact Document.finite_parse text n hn

/-- The texts of the finite numbers that a response carries read as those numbers. -/
def TextsReadBack (r : Response) : Prop := ∀ x, r.Carries x → x.isFinite = true → ReadsBack x

/-- Two responses with one line differ at most in their cursors. -/
theorem reset_eq_of_encode_eq {r r' : Response} (h : ∀ x, r.Carries x → ReadsBack x)
    (h' : ∀ x, r'.Carries x → ReadsBack x) (hline : r.encode = r'.encode) :
    r.reset = r'.reset := by
  have hread := decode_encode h
  rw [hline, decode_encode h'] at hread
  exact (Except.ok.inj hread).symm

/-- **Responses pass through their lines unchanged but for their cursors.** The line
of a response holds no character below the space, so that it holds no newline. With
finite numbers it reads as the response with every cursor before its first row, which
is as empty, as much a failure and of the same kind of result as before; and two
responses have different lines unless they are the same up to their cursors. A
response that was read from any line has a line of its own that reads as the same
response. The texts of the finite numbers that a response carries are taken to read as
those numbers. -/
theorem line_keeps_response :
    (∀ r : Response, ∀ c ∈ r.encode.toList, 0x20 ≤ c.toNat) ∧
    (∀ r : Response, (∀ x, r.Carries x → x.isFinite = true) → r.TextsReadBack →
      decode r.encode = .ok r.reset ∧ r.reset.isEmpty = r.isEmpty ∧
        r.reset.isFailure = r.isFailure ∧ r.reset.kind? = r.kind?) ∧
    (∀ r r' : Response, (∀ x, r.Carries x ∨ r'.Carries x → x.isFinite = true) →
      r.TextsReadBack → r'.TextsReadBack → r.encode = r'.encode → r.reset = r'.reset) ∧
    (∀ (line : String) (r : Response), decode line = .ok r → r.TextsReadBack →
      decode r.encode = .ok r) := by
  refine ⟨encode_not_low, ?_, ?_, ?_⟩
  · intro r hfinite hback
    refine ⟨decode_encode fun x hx => hback x hx (hfinite x hx), ?_⟩
    cases r <;> exact ⟨rfl, rfl, rfl⟩
  · intro r r' hfinite hback hback' hline
    exact reset_eq_of_encode_eq (fun x hx => hback x hx (hfinite x (.inl hx)))
      (fun x hx => hback' x hx (hfinite x (.inr hx))) hline
  · intro line r hread hback
    obtain ⟨text, hdocument⟩ := exists_document_of_decode hread
    rw [decode_encode fun x hx => hback x hx (isFinite_of_decode hread hx),
      reset_of_read hdocument]

/-- One rating among rows, and one on its own. -/
def sampleRatings : RatingVector := ⟨7, .user, Table.empty.insert 1 ⟨4.5, some 12⟩⟩

/-- A line with blanks and with members in another order. -/
def sampleLine : String :=
  " \x7b\"v_rating\": \x7b\"kind\":\"user\",\"id\":7," ++
    "\"ratings\":[[1,\x7b\"rated_at\":12,\"value\":4.5\x7d]]\x7d \x7d"

/-- Both ways round: rows of which the first was handed out, the same rows before it,
and a line with a rating. -/
theorem line_keeps_response_sample :
    decode (result .ratingRows ⟨[sampleRatings], 1⟩).encode =
        .ok (result .ratingRows ⟨[sampleRatings], 0⟩) ∧
      reset (result .ratingRows ⟨[sampleRatings], 1⟩) =
        reset (result .ratingRows ⟨[sampleRatings], 0⟩) ∧
      ∃ r, decode sampleLine = .ok r ∧ decode r.encode = .ok r := by
  have hfirst : (format.toJson (result .ratingRows ⟨[sampleRatings], 0⟩)).numbers =
      [.integer 7, .integer 1, .real 4.5, .integer 12] := by decide +kernel
  have hrows : ∀ n, (format.toJson (result .ratingRows ⟨[sampleRatings], n⟩)).numbers =
      [.integer 7, .integer 1, .real 4.5, .integer 12] := fun _ => hfirst
  have hline : (decode sampleLine).toOption.map (fun r => (format.toJson r).numbers) =
      some [.integer 7, .integer 1, .real 4.5, .integer 12] := by decide +kernel
  have hback : ∀ {r : Response},
      (format.toJson r).numbers = [.integer 7, .integer 1, .real 4.5, .integer 12] →
        ∀ x, r.Carries x → ReadsBack x :=
    fun h x hx => Request.readsBack_sample h (by simp) hx
  refine ⟨?_, ?_, ?_⟩
  · exact (line_keeps_response.2.1 _ (fun x hx => (hback (hrows 1) x hx).isFinite)
      fun x hx _ => hback (hrows 1) x hx).1
  · refine line_keeps_response.2.2.1 _ _ ?_ (fun x hx _ => hback (hrows 1) x hx)
      (fun x hx _ => hback (hrows 0) x hx) rfl
    rintro x (hx | hx)
    · exact (hback (hrows 1) x hx).isFinite
    · exact (hback (hrows 0) x hx).isFinite
  · cases hr : decode sampleLine with
    | error e =>
      rw [hr] at hline
      cases hline
    | ok r =>
      rw [hr] at hline
      have hread : (format.toJson r).numbers = [.integer 7, .integer 1, .real 4.5, .integer 12] :=
        Option.some.inj hline
      exact ⟨r, rfl, line_keeps_response.2.2.2 sampleLine r hr fun x hx _ => hback hread x hx⟩

end Response

end RatingServer
