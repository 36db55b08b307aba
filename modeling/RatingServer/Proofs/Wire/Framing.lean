import RatingServer.Frame
import RatingServer.Proofs.Wire.Delimited
import RatingServer.Proofs.Wire.TextLines
import RatingServer.Proofs.Wire.Values

/-!
# Frames that are read back

The bytes of every exchanged value end by themselves, so that the frame of a
response is read as the response, with every row cursor before its first row, and
the bytes after the frame are left.
-/

namespace RatingServer

open Wire

/-- Attributes. -/
theorem Attribute.delimited : Delimited Attribute.format :=
  (DelimitedAs.required "name" .string).and
    ((DelimitedAs.required "kind" (.names (by decide) fun t => by cases t <;> decide)).and
      (.required "key" .bool)) |>.mapFields fun _ => rfl

/-- Attribute lists. -/
theorem AttributeList.delimited : Delimited AttributeList.format :=
  (Attribute.delimited.list.required "attributes").mapFields fun _ => rfl

/-- Values of attributes. -/
theorem AttributeValue.delimited : Delimited AttributeValue.format := by
  refine DelimitedAs.choice (by decide) fun a => ?_
  cases a with
  | bit b => exact .payload rfl DelimitedAs.bool
  | nominal i => exact .payload rfl DelimitedAs.int32
  | integer n => exact .payload rfl DelimitedAs.int64
  | real x => exact .payload rfl DelimitedAs.float
  | string s => exact .payload rfl DelimitedAs.string
  | time t => exact .payload rfl DelimitedAs.uint64
  | missing => exact .bareName rfl

/-- Profiles. -/
theorem Profile.delimited : Delimited Profile.format :=
  (DelimitedAs.required "id" .int32).and (.required "values" AttributeValue.delimited.table)
    |>.mapFields fun _ => rfl

/-- Ratings. -/
theorem Rating.delimited : Delimited Rating.format :=
  (DelimitedAs.required "value" .float).and (.optional "rated_at" .uint64)
    |>.mapFields fun _ => rfl

/-- Sides. -/
theorem Side.delimited : Delimited Side.format :=
  .names (by decide) fun s => by cases s <;> decide

/-- Rating vectors. -/
theorem RatingVector.delimited : Delimited RatingVector.format := by
  have hratings : Delimited ((Format.list (.pair .int32 Rating.format)).map
      (Table.ofList (α := Rating) (κ := Int32)) Table.entries) :=
    (DelimitedAs.int32.pair Rating.delimited).list.map fun t => Table.ofList_entries t
  exact (DelimitedAs.required "id" .int32).and
    ((DelimitedAs.required "kind" Side.delimited).and (.required "ratings" hratings))
      |>.mapFields fun _ => rfl

/-- External records. -/
theorem ExternalRecord.delimited : Delimited ExternalRecord.format :=
  (DelimitedAs.required "unit" .string).and
    ((DelimitedAs.required "attribute" .string).and (.required "value" .string))
      |>.mapFields fun _ => rfl

/-- Internal records. -/
theorem InternalRecord.delimited : Delimited InternalRecord.format :=
  (DelimitedAs.required "unit" .string).and
    ((DelimitedAs.required "attribute" .string).and (.required "value" .int32))
      |>.mapFields fun _ => rfl

/-- Settings. -/
theorem Settings.delimited : Delimited Settings.format := DelimitedAs.string.table

/-- Nominal values. -/
theorem Nominal.delimited : Delimited Nominal.format :=
  (DelimitedAs.required "value" .string).and
    ((DelimitedAs.required "index" .int32).and (.required "parent_index" .int32))
      |>.mapFields fun _ => rfl

/-- Nominal lists. -/
theorem NominalList.delimited : Delimited NominalList.format :=
  (DelimitedAs.required "unit" .string).and
    ((DelimitedAs.required "attribute" .string).and
      (.required "nominals" Nominal.delimited.list)) |>.mapFields fun _ => rfl

/-- Snapshots. -/
theorem Snapshot.delimited : Delimited Snapshot.format :=
  (DelimitedAs.required "config" Settings.delimited).and
    ((DelimitedAs.required "user_ratings" RatingVector.delimited.list).and
      ((DelimitedAs.required "user_profiles" Profile.delimited.list).and
        ((DelimitedAs.required "item_profiles" Profile.delimited.list).and
          ((DelimitedAs.required "nominals" NominalList.delimited.list).and
            (.required "external_records"
              (InternalRecord.delimited.pair ExternalRecord.delimited).list)))))
    |>.mapFields fun _ => rfl

/-- Evaluators. -/
theorem Evaluator.delimited : Delimited Evaluator.format :=
  (DelimitedAs.required "name" .string).and
    ((DelimitedAs.required "version" .string).and (.optional "bind_uri" .string))
      |>.mapFields fun _ => rfl

/-- Failures. -/
theorem Failure.delimited : Delimited Failure.format := by
  have hlifecycle : Delimited LifecycleError.format :=
    .names (by decide) fun e => by cases e <;> decide
  refine DelimitedAs.choice (by decide) fun f => ?_
  cases f with
  | permissionDenied => exact .bareName rfl
  | notAuthenticated => exact .bareName rfl
  | notRunning => exact .bareName rfl
  | invalidRequest reason => exact .payload rfl DelimitedAs.string
  | unsupported operation => exact .payload rfl DelimitedAs.string
  | lifecycle error => exact .payload rfl hlifecycle
  | internal reason => exact .payload rfl DelimitedAs.string

/-- Results, of which a reader sees a cursor before the first row. -/
theorem ResultKind.delimited (kind : ResultKind) : DelimitedAs kind.format kind.reset := by
  cases kind with
  | attributes => exact AttributeList.delimited
  | flag => exact DelimitedAs.bool
  | settings => exact Settings.delimited
  | ratingRows => exact RatingVector.delimited.rows
  | profileRows => exact Profile.delimited.rows
  | idRows => exact DelimitedAs.int32.rows
  | nominals => exact NominalList.delimited
  | profile => exact Profile.delimited
  | snapshot => exact Snapshot.delimited
  | text => exact DelimitedAs.string
  | texts => exact DelimitedAs.string.list
  | ratings => exact RatingVector.delimited
  | record => exact ExternalRecord.delimited
  | evaluator => exact Evaluator.delimited

/-- Responses, of which a reader sees every cursor before its first row. -/
theorem Response.delimited : DelimitedAs Response.format Response.reset := by
  refine DelimitedAs.choice (by decide) fun r => ?_
  cases r with
  | empty => exact .bareName rfl
  | result kind value =>
    refine .payload (?_ : _ = some (Response.variantOf kind)) kind.delimited
    cases kind <;> rfl
  | failure f => exact .payload rfl Failure.delimited

namespace Frame

variable {α : Type} {f : Format α} {seen : α → α} {a : α}

/-- A value whose body is short enough has a frame: the length of the body, then the
body. -/
theorem encode_of_le (hlength : (f.put a).length ≤ maxFrameLength) :
    encode f a = .ok (bigEndian 4 (f.put a).length ++ f.put a) := if_pos hlength

/-- A length up to the limit is read from its header. -/
theorem ofBigEndian_header {length : Nat} (h : length ≤ maxFrameLength) :
    ofBigEndian (bigEndian 4 length) = length := by
  refine ofBigEndian_bigEndian ?_
  have hmax : maxFrameLength = 67108864 := rfl
  show length < 4294967296
  omega

/-- A length up to the limit is a count of 64 bits. -/
theorem lt_size_of_le {length : Nat} (h : length ≤ maxFrameLength) : length < UInt64.size := by
  have hmax : maxFrameLength = 67108864 := rfl
  have h64 : UInt64.size = 18446744073709551616 := rfl
  omega

/-- The body of a value is read as what is seen of the value, whatever bytes follow
it. -/
theorem decodeBody_put (h : DelimitedAs f seen) (rest : Bytes)
    (hlength : (f.put a).length < UInt64.size) :
    decodeBody f (f.put a ++ rest) = .ok (seen a) := by
  rw [decodeBody, h.get_put a rest hlength]

/-- The frame of a value is read as what is seen of the value, and the bytes after it
are left. -/
theorem read_encode (h : DelimitedAs f seen) {frame : Bytes} (hframe : encode f a = .ok frame)
    (rest : Bytes) : read f (frame ++ rest) = (.ok (seen a), rest) := by
  unfold encode at hframe
  dsimp only at hframe
  split at hframe
  · rename_i hlength
    cases hframe
    have hbody := decodeBody_put h [] (lt_size_of_le hlength)
    rw [List.append_nil] at hbody
    rw [List.append_assoc, read, take?_append_of_eq (length_bigEndian 4 _)]
    dsimp only
    rw [ofBigEndian_header hlength, if_neg (Nat.not_lt.mpr hlength), take?_append]
    dsimp only
    rw [hbody]
    rfl
  · cases hframe

/-- The bytes of a line of text are no frame: as a length, any four of them are above
the limit. -/
theorem read_line {text : String} (hlow : ∀ c ∈ text.toList, 0x20 ≤ c.toNat) :
    ∃ e, (read f (utf8 (text ++ "\n"))).1 = .error e := by
  have hfirst : ∀ header bs, take? 4 (utf8 (text ++ "\n")) = some (header, bs) →
      maxFrameLength < ofBigEndian header := by
    intro header bs htake
    have hmax : maxFrameLength = 67108864 := rfl
    unfold take? at htake
    split at htake
    · rename_i hlength
      cases htake
      rw [utf8_line] at hlength ⊢
      cases hbytes : utf8 text with
      | nil =>
        rw [hbytes] at hlength
        simp at hlength
      | cons b bs =>
        rw [hbytes, List.cons_append, List.take_succ_cons, List.length_cons] at hlength
        have hb : 0x20 ≤ b.toNat := utf8_not_low hlow b (hbytes ▸ List.mem_cons_self)
        have hthree : ((bs ++ [newline]).take 3).length = 3 := by omega
        have hpow : Nat.pow 256 3 = 16777216 := rfl
        have hle := le_ofBigEndian b ((bs ++ [newline]).take 3)
        rw [hthree, hpow] at hle
        rw [List.cons_append, List.take_succ_cons]
        omega
    · cases htake
  unfold read
  split
  · exact ⟨_, rfl⟩
  · rename_i header bs htake
    dsimp only
    rw [if_pos (hfirst header bs htake)]
    exact ⟨_, rfl⟩

end Frame

end RatingServer
