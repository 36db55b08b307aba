import RatingServer.Proofs.Wire.Framing
import RatingServer.Proofs.Wire.Truncation

/-!
# Frames that end by themselves

The frame of a response tells where it ends: whoever reads it takes its bytes and no
more, and from a frame that was cut off nothing is read. The readers of all exchanged
types are steady, so that the same holds of the body alone.
-/

namespace RatingServer

open Wire

/-- Attribute lists. -/
theorem AttributeList.steady : Steady AttributeList.format.get := by
  have hattribute : Steady Attribute.format.get :=
    ((Steady.required "name" .string).and
      ((Steady.required "kind" .names).and (.required "key" .bool))).mapFields
  exact (hattribute.list.required "attributes").mapFields

/-- Values of attributes. -/
theorem AttributeValue.steady : Steady AttributeValue.format.get := by
  refine Steady.choice fun v hv => ?_
  simp only [List.mem_cons, List.not_mem_nil, or_false] at hv
  rcases hv with rfl | rfl | rfl | rfl | rfl | rfl | rfl
  · exact Steady.bool.payload
  · exact Steady.signed.payload
  · exact Steady.signed.payload
  · exact Steady.float.payload
  · exact Steady.string.payload
  · exact Steady.unsigned.payload
  · exact Steady.pure _

/-- Profiles. -/
theorem Profile.steady : Steady Profile.format.get :=
  ((Steady.required "id" .signed).and
    (.required "values" AttributeValue.steady.table)).mapFields

/-- Rating vectors. -/
theorem RatingVector.steady : Steady RatingVector.format.get := by
  have hside : Steady Side.format.get := .names
  have hrating : Steady Rating.format.get :=
    ((Steady.required "value" .float).and (.optional "rated_at" .unsigned)).mapFields
  have hratings : Steady ((Format.list (.pair .int32 Rating.format)).map
      (Table.ofList (α := Rating) (κ := Int32)) Table.entries).get :=
    (Steady.signed.pair hrating).list.map
  exact ((Steady.required "id" .signed).and
    ((hside.required "kind").and (hratings.required "ratings"))).mapFields

/-- External records. -/
theorem ExternalRecord.steady : Steady ExternalRecord.format.get :=
  ((Steady.required "unit" .string).and
    ((Steady.required "attribute" .string).and (.required "value" .string))).mapFields

/-- Nominal lists. -/
theorem NominalList.steady : Steady NominalList.format.get := by
  have hnominal : Steady Nominal.format.get :=
    ((Steady.required "value" .string).and
      ((Steady.required "index" .signed).and (.required "parent_index" .signed))).mapFields
  exact ((Steady.required "unit" .string).and
    ((Steady.required "attribute" .string).and (hnominal.list.required "nominals"))).mapFields

/-- Settings. -/
theorem Settings.steady : Steady Settings.format.get := Steady.string.table

/-- Snapshots. -/
theorem Snapshot.steady : Steady Snapshot.format.get := by
  have hinternal : Steady InternalRecord.format.get :=
    ((Steady.required "unit" .string).and
      ((Steady.required "attribute" .string).and (.required "value" .signed))).mapFields
  exact ((Settings.steady.required "config").and
    ((RatingVector.steady.list.required "user_ratings").and
      ((Profile.steady.list.required "user_profiles").and
        ((Profile.steady.list.required "item_profiles").and
          ((NominalList.steady.list.required "nominals").and
            ((hinternal.pair ExternalRecord.steady).list.required "external_records")))))).mapFields

/-- Evaluators. -/
theorem Evaluator.steady : Steady Evaluator.format.get :=
  ((Steady.required "name" .string).and
    ((Steady.required "version" .string).and (.optional "bind_uri" .string))).mapFields

/-- Failures. -/
theorem Failure.steady : Steady Failure.format.get := by
  have hlifecycle : Steady LifecycleError.format.get := .names
  refine Steady.choice fun v hv => ?_
  simp only [List.mem_cons, List.not_mem_nil, or_false] at hv
  rcases hv with rfl | rfl | rfl | rfl | rfl | rfl | rfl
  · exact Steady.pure _
  · exact Steady.pure _
  · exact Steady.pure _
  · exact Steady.string.payload
  · exact Steady.string.payload
  · exact hlifecycle.payload
  · exact Steady.string.payload

/-- Results. -/
theorem ResultKind.steady (kind : ResultKind) : Steady kind.format.get := by
  cases kind with
  | attributes => exact AttributeList.steady
  | flag => exact Steady.bool
  | settings => exact Settings.steady
  | ratingRows => exact RatingVector.steady.rows
  | profileRows => exact Profile.steady.rows
  | idRows => exact Steady.rows (f := .int32) .signed
  | nominals => exact NominalList.steady
  | profile => exact Profile.steady
  | snapshot => exact Snapshot.steady
  | text => exact Steady.string
  | texts => exact Steady.string.list
  | ratings => exact RatingVector.steady
  | record => exact ExternalRecord.steady
  | evaluator => exact Evaluator.steady

/-- Responses. -/
theorem Response.steady : Steady Response.format.get := by
  refine Steady.choice fun v hv => ?_
  simp only [List.mem_append, List.mem_cons, List.mem_map, List.not_mem_nil, or_false] at hv
  rcases hv with (rfl | ⟨kind, _, rfl⟩) | rfl
  · exact Steady.pure _
  · exact kind.steady.payload
  · exact Failure.steady.payload

namespace Frame

variable {α : Type} {f : Format α} {seen : α → α} {a : α}

/-- From bytes that end before a frame does nothing is read: the header ends too
early, or the body does. -/
theorem read_start (hlength : (f.put a).length ≤ maxFrameLength) {start : Bytes}
    (hstart : start <+: bigEndian 4 (f.put a).length ++ f.put a)
    (hshort : start ≠ bigEndian 4 (f.put a).length ++ f.put a) :
    read f start = (.error .couldNotReceive, []) := by
  by_cases hheader : start.length < 4
  · rw [read, take?_eq_none hheader]
  · have hwhole : bigEndian 4 (f.put a).length <+: start :=
      List.prefix_of_prefix_length_le (List.prefix_append _ _) hstart
        (by rw [length_bigEndian]; omega)
    obtain ⟨body, rfl⟩ := hwhole
    have hbody : body <+: f.put a := (List.prefix_append_right_inj _).mp hstart
    have hends : body.length < (f.put a).length := by
      refine Nat.lt_of_le_of_ne hbody.length_le fun heq => hshort ?_
      rw [hbody.eq_of_length heq]
    rw [read, take?_append_of_eq (length_bigEndian 4 _)]
    dsimp only
    rw [ofBigEndian_header hlength, if_neg (by omega), take?_eq_none hends]

/-- Nothing is decoded from bytes that end before the body of a value does. -/
theorem decodeBody_start (h : DelimitedAs f seen) (hsteady : Steady f.get)
    (hlength : (f.put a).length ≤ maxFrameLength) {start : Bytes} (hstart : start <+: f.put a)
    (hshort : start ≠ f.put a) : decodeBody f start = .error .malformed := by
  rw [decodeBody, h.get_eq_none hsteady (lt_size_of_le hlength) hstart hshort]

end Frame

/-- **The frame of a response ends by itself.** A response whose body is within the
limit has a frame. Whoever reads the frame, whatever bytes follow it, gets the
response with every cursor before its first row and leaves just those bytes; from a
frame that is cut off anywhere nothing is received. The body alone decodes to the same
response, whatever bytes follow it, and a body that is cut off anywhere does not
decode. -/
theorem Response.frame_ends_by_itself (r : Response)
    (hlength : (format.put r).length ≤ maxFrameLength) :
    ∃ frame, Frame.encode format r = .ok frame ∧
      (∀ rest, Frame.read format (frame ++ rest) = (.ok r.reset, rest)) ∧
      (∀ start, start <+: frame → start ≠ frame →
        (Frame.read format start).1 = .error .couldNotReceive) ∧
      (∀ rest, (Frame.decodeBody format (format.put r ++ rest)).mapError CallError.couldNotDecode =
        .ok r.reset) ∧
      ∀ start, start <+: format.put r → start ≠ format.put r →
        (Frame.decodeBody format start).mapError CallError.couldNotDecode =
          .error (.couldNotDecode .malformed) := by
  have hframe := Frame.encode_of_le hlength
  refine ⟨_, hframe, Frame.read_encode Response.delimited hframe, fun start hstart hshort => ?_,
    fun rest => ?_, fun start hstart hshort => ?_⟩
  · rw [Frame.read_start hlength hstart hshort]
  · rw [Frame.decodeBody_put Response.delimited rest (Frame.lt_size_of_le hlength)]
    rfl
  · rw [Frame.decodeBody_start Response.delimited Response.steady hlength hstart hshort]
    rfl

/-- Two rows of which the first has been handed out: the frame, the frame before
another byte, and the frame without its last byte. -/
theorem Response.frame_ends_by_itself_rows :
    Frame.encode format (.result .idRows ⟨[5, -5], 1⟩) = .ok [0, 0, 0, 4, 6, 2, 10, 9] ∧
      Frame.read format [0, 0, 0, 4, 6, 2, 10, 9, 7] = (.ok (.result .idRows ⟨[5, -5], 0⟩), [7]) ∧
      (Frame.read format [0, 0, 0, 4, 6, 2, 10]).1 = .error .couldNotReceive := by
  obtain ⟨frame, hframe, hread, hcut, -, -⟩ :=
    frame_ends_by_itself (.result .idRows ⟨[5, -5], 1⟩) (by decide)
  have hbytes : Frame.encode format (.result .idRows ⟨[5, -5], 1⟩) =
      .ok [0, 0, 0, 4, 6, 2, 10, 9] := rfl
  obtain rfl : [0, 0, 0, 4, 6, 2, 10, 9] = frame := Except.ok.inj (hbytes.symm.trans hframe)
  exact ⟨hbytes, hread [7], hcut _ ⟨[9], rfl⟩ (by decide)⟩

/-- A value that is not a number has its very word in the frame, and it is read back. -/
example :
    let rating : Rating := ⟨⟨0xFFF0000000000001⟩, none⟩
    let r : Response := .result .ratings ⟨5, .user, Table.empty.insert 7 rating⟩
    let frame := [0, 0, 0, 14, 12, 10, 0, 1, 14, 1, 0, 0, 0, 0, 0, 0xF0, 0xFF, 0]
    Frame.encode Response.format r = .ok frame ∧
      Frame.read Response.format frame = (.ok r, []) := ⟨rfl, rfl⟩

end RatingServer
