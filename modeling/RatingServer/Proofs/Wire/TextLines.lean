import RatingServer.Proofs.Wire.Counting
import RatingServer.Wire.Bytes

/-!
# Lines of text as bytes

A text without control characters has no byte below the space. So it makes one line
of bytes: the newline that is written after it is the first one, and neither the
cutting of bytes into lines nor the reading of one line ends before it.
-/

namespace RatingServer.Wire

/-- The bytes of a text are those of its characters. -/
theorem utf8_eq_flatMap (s : String) : utf8 s = s.toList.flatMap String.utf8EncodeChar := by
  rw [utf8, String.toUTF8_eq_toByteArray, ← String.utf8Encode_toList, List.utf8Encode,
    List.data_toByteArray]

/-- A text has at least one byte for each of its characters. -/
theorem length_le_utf8 (s : String) : s.toList.length ≤ (utf8 s).length := by
  rw [utf8_eq_flatMap]
  refine length_le_flatMap (fun c => ?_) s.toList
  rw [String.length_utf8EncodeChar]
  exact c.utf8Size_pos

/-- A text has at most four bytes for each of its characters. -/
theorem length_utf8_le (s : String) : (utf8 s).length ≤ 4 * s.toList.length := by
  rw [utf8_eq_flatMap]
  induction s.toList with
  | nil => exact Nat.le_refl 0
  | cons c cs ih =>
    have hc : (String.utf8EncodeChar c).length ≤ 4 := by
      rw [String.length_utf8EncodeChar]
      exact c.utf8Size_le_four
    rw [List.flatMap_cons, List.length_append, List.length_cons]
    omega

/-- The bytes of a line are those of its text and a newline. -/
theorem utf8_line (s : String) : utf8 (s ++ "\n") = utf8 s ++ [newline] := by
  rw [utf8_eq_flatMap, utf8_eq_flatMap, String.toList_append, List.flatMap_append]
  rfl

/-- A character that is no control character has no byte below the space. -/
theorem utf8EncodeChar_not_low {c : Char} (h : 0x20 ≤ c.toNat) :
    ∀ b ∈ String.utf8EncodeChar c, 0x20 ≤ b.toNat := by
  have hvalue : 0x20 ≤ c.val.toNat := h
  intro b hb
  unfold String.utf8EncodeChar at hb
  dsimp only at hb
  split at hb
  · rw [List.mem_singleton] at hb
    rw [hb, UInt8.toNat_ofNat']
    omega
  · split at hb
    · simp only [List.mem_cons, List.not_mem_nil, or_false] at hb
      rcases hb with rfl | rfl <;> rw [UInt8.toNat_ofNat'] <;> omega
    · split at hb
      · simp only [List.mem_cons, List.not_mem_nil, or_false] at hb
        rcases hb with rfl | rfl | rfl <;> rw [UInt8.toNat_ofNat'] <;> omega
      · simp only [List.mem_cons, List.not_mem_nil, or_false] at hb
        rcases hb with rfl | rfl | rfl | rfl <;> rw [UInt8.toNat_ofNat'] <;> omega

/-- A text without control characters has no byte below the space. -/
theorem utf8_not_low {s : String} (h : ∀ c ∈ s.toList, 0x20 ≤ c.toNat) :
    ∀ b ∈ utf8 s, 0x20 ≤ b.toNat := by
  rw [utf8_eq_flatMap]
  intro b hb
  obtain ⟨c, hc, hb⟩ := List.mem_flatMap.mp hb
  exact utf8EncodeChar_not_low (h c hc) b hb

/-- No byte of such a text ends a line. -/
theorem newline_not_mem_utf8 {s : String} (h : ∀ c ∈ s.toList, 0x20 ≤ c.toNat) :
    newline ∉ utf8 s := fun hmem => absurd (utf8_not_low h newline hmem) (by decide)

/-- The last byte of a character is a carriage return only if the character is. -/
theorem getLast?_utf8EncodeChar {c : Char}
    (h : (String.utf8EncodeChar c).getLast? = some carriageReturn) : c = '\r' := by
  by_cases hlow : 0x20 ≤ c.toNat
  · exact absurd (utf8EncodeChar_not_low hlow _ (List.mem_of_getLast? h)) (by decide)
  · have hsmall : c.val.toNat ≤ 0x7f := by
      have hvalue : ¬ 0x20 ≤ c.val.toNat := hlow
      omega
    unfold String.utf8EncodeChar at h
    dsimp only at h
    rw [if_pos hsmall, List.getLast?_singleton] at h
    have hbyte := congrArg UInt8.toNat (Option.some.inj h)
    rw [UInt8.toNat_ofNat'] at hbyte
    have hvalue : c.val.toNat = 13 := by
      have hcarriage : carriageReturn.toNat = 13 := rfl
      omega
    exact Char.ext (UInt32.toNat_inj.mp hvalue)

/-- The text of a line is the text that was written, but for a carriage return at its
end. -/
theorem lineText?_any (s : String) :
    ∃ text, lineText? (utf8 s) = some text ∧ (s = text ∨ s = text ++ "\r") := by
  by_cases hlast : s.toList.getLast? = some '\r'
  · obtain ⟨cs, hcs⟩ := List.getLast?_eq_some_iff.mp hlast
    have hs : s = String.ofList cs ++ "\r" := by
      rw [← String.toList_inj, hcs, String.toList_append, String.toList_ofList]
      rfl
    have hbytes : utf8 s = utf8 (String.ofList cs) ++ [carriageReturn] := by
      rw [hs, utf8_eq_flatMap, utf8_eq_flatMap, String.toList_append, List.flatMap_append]
      rfl
    refine ⟨String.ofList cs, ?_, .inr hs⟩
    rw [lineText?, hbytes, if_pos List.getLast?_concat, List.dropLast_concat, ofUtf8?_utf8]
  · refine ⟨s, ?_, .inl rfl⟩
    have hbyte : (utf8 s).getLast? ≠ some carriageReturn := by
      intro hbyte
      rw [utf8_eq_flatMap] at hbyte
      rcases List.eq_nil_or_concat s.toList with hnil | ⟨cs, c, hchars⟩
      · rw [hnil] at hbyte
        cases hbyte
      · rw [List.concat_eq_append] at hchars
        rw [hchars, List.flatMap_append, List.flatMap_singleton, List.getLast?_append] at hbyte
        cases hend : (String.utf8EncodeChar c).getLast? with
        | none =>
          have hlength := String.length_utf8EncodeChar c
          rw [List.getLast?_eq_none_iff.mp hend] at hlength
          exact Nat.ne_of_gt c.utf8Size_pos hlength.symm
        | some b =>
          rw [hend, Option.some_or] at hbyte
          rw [hchars, getLast?_utf8EncodeChar (hend.trans hbyte)] at hlast
          exact hlast List.getLast?_concat
    rw [lineText?, if_neg hbyte, ofUtf8?_utf8]

/-- Puts a byte to the lines before it. -/
def cutLine (r : List Bytes × Bytes) (b : UInt8) : List Bytes × Bytes :=
  if b = newline then (r.2.reverse :: r.1, []) else (r.1, b :: r.2)

/-- Bytes that end no line are put to the current one. -/
theorem foldl_cutLine_line {line : Bytes} (h : newline ∉ line) (r : List Bytes × Bytes) :
    line.foldl cutLine r = (r.1, line.reverse ++ r.2) := by
  induction line generalizing r with
  | nil => rfl
  | cons b line ih =>
    rw [List.mem_cons, not_or] at h
    have hb : ¬ b = newline := fun heq => h.1 heq.symm
    rw [List.foldl_cons, cutLine, if_neg hb, ih h.2, List.reverse_cons, List.append_assoc]
    rfl

/-- Lines that were cut off before stay before those that are cut off later. -/
theorem foldl_cutLine_lines (bs : Bytes) (lines : List Bytes) (unread : Bytes) :
    bs.foldl cutLine (lines, unread) =
      ((bs.foldl cutLine ([], unread)).1 ++ lines, (bs.foldl cutLine ([], unread)).2) := by
  induction bs generalizing lines unread with
  | nil => rfl
  | cons b bs ih =>
    rw [List.foldl_cons, List.foldl_cons, cutLine, cutLine]
    split
    · rw [ih (unread.reverse :: lines) [], ih [unread.reverse] []]
      simp only [List.append_assoc, List.singleton_append]
    · exact ih lines (b :: unread)

/-- The first line is cut off at the first newline. -/
theorem splitLines_line {line : Bytes} (h : newline ∉ line) (rest : Bytes) :
    splitLines (line ++ newline :: rest) =
      (line :: (splitLines rest).1, (splitLines rest).2) := by
  have hfold : (line ++ newline :: rest).foldl cutLine ([], []) =
      ((rest.foldl cutLine ([], [])).1 ++ [line], (rest.foldl cutLine ([], [])).2) := by
    rw [List.foldl_append, foldl_cutLine_line h, List.foldl_cons, cutLine, if_pos rfl,
      foldl_cutLine_lines, List.append_nil, List.reverse_reverse]
  show (((line ++ newline :: rest).foldl cutLine ([], [])).1.reverse,
    ((line ++ newline :: rest).foldl cutLine ([], [])).2.reverse) = _
  rw [hfold, List.reverse_append]
  rfl

/-- A text without control characters and a newline are one line. -/
theorem splitLines_text {text : String} (h : ∀ c ∈ text.toList, 0x20 ≤ c.toNat) :
    splitLines (utf8 (text ++ "\n")) = ([utf8 text], []) := by
  rw [utf8_line, splitLines_line (newline_not_mem_utf8 h)]
  rfl

/-- Bytes cut into lines at the newlines in them, and the bytes after the last of these. -/
structure Cut (bs : Bytes) (lines : List Bytes) (last : Bytes) : Prop where
  /-- Nothing is lost. -/
  whole : bs = lines.flatMap (· ++ [newline]) ++ last
  /-- No line has a newline in it. -/
  inner : ∀ line ∈ lines, newline ∉ line
  /-- Neither have the bytes after them. -/
  rest : newline ∉ last

namespace Cut

variable {bs xs ys : Bytes} {lines more : List Bytes} {line last : Bytes}

/-- A line before other bytes is one line more. -/
theorem cons (h : newline ∉ line) (hcut : Cut bs lines last) :
    Cut (line ++ newline :: bs) (line :: lines) last where
  whole := by
    rw [hcut.whole, List.flatMap_cons, List.append_assoc, List.append_assoc]
    rfl
  inner := List.forall_mem_cons.mpr ⟨h, hcut.inner⟩
  rest := hcut.rest

/-- The bytes are cut in this way. -/
theorem splitLines_eq (h : Cut bs lines last) : splitLines bs = (lines, last) := by
  obtain ⟨rfl, hinner, hrest⟩ := h
  induction lines with
  | nil =>
    rw [List.flatMap_nil, List.nil_append]
    show ((last.foldl cutLine ([], [])).1.reverse, (last.foldl cutLine ([], [])).2.reverse) = _
    rw [foldl_cutLine_line hrest, List.append_nil, List.reverse_reverse]
    rfl
  | cons line lines ih =>
    obtain ⟨hline, hinner⟩ := List.forall_mem_cons.mp hinner
    have hsplit : (line :: lines).flatMap (· ++ [newline]) ++ last =
        line ++ newline :: (lines.flatMap (· ++ [newline]) ++ last) := by
      rw [List.flatMap_cons, List.append_assoc, List.append_assoc]
      rfl
    rw [hsplit, splitLines_line hline, ih hinner]

/-- Lines before other bytes are cut first. -/
theorem append (h : Cut xs lines line) (hmore : Cut (line ++ ys) more last) :
    Cut (xs ++ ys) (lines ++ more) last where
  whole := by
    rw [h.whole, List.append_assoc, hmore.whole, List.flatMap_append, List.append_assoc]
  inner := List.forall_mem_append.mpr ⟨h.inner, hmore.inner⟩
  rest := hmore.rest

/-- What has come of a line is not longer than the line. -/
theorem length_le {limit : Nat} (h : Cut (line ++ ys) lines last) (hline : newline ∉ line)
    (hlines : ∀ l ∈ lines, l.length ≤ limit) (hlast : last.length ≤ limit) :
    line.length ≤ limit := by
  cases lines with
  | nil =>
    have hlength := congrArg List.length h.whole
    rw [List.flatMap_nil, List.nil_append, List.length_append] at hlength
    omega
  | cons first lines =>
    have hfirst := hlines first List.mem_cons_self
    have hwhole := h.whole
    rw [List.flatMap_cons, List.append_assoc, List.append_assoc] at hwhole
    rcases List.append_eq_append_iff.mp hwhole with ⟨missing, hmissing, -⟩ | ⟨extra, hextra, hrest⟩
    · have hlength := congrArg List.length hmissing
      rw [List.length_append] at hlength
      omega
    · cases extra with
      | nil =>
        rw [List.append_nil] at hextra
        rwa [hextra]
      | cons b extra =>
        -- the byte after the first line is a newline
        obtain ⟨rfl, -⟩ := List.cons.inj hrest
        rw [hextra] at hline
        exact absurd (List.mem_append_right _ List.mem_cons_self) hline

end Cut

/-- All bytes can be cut into lines. -/
theorem exists_cut (bs : Bytes) : ∃ lines last, Cut bs lines last := by
  induction bs with
  | nil => exact ⟨[], [], rfl, nofun, nofun⟩
  | cons b bs ih =>
    obtain ⟨lines, last, hcut⟩ := ih
    by_cases hb : b = newline
    · subst hb
      have hempty : newline ∉ ([] : Bytes) := List.not_mem_nil
      exact ⟨[] :: lines, last, hcut.cons hempty⟩
    · have hline : ∀ line : Bytes, newline ∉ line → newline ∉ b :: line := fun line h hmem =>
        (List.mem_cons.mp hmem).elim (fun heq => hb heq.symm) h
      cases lines with
      | nil =>
        refine ⟨[], b :: last, ?_, nofun, hline last hcut.rest⟩
        rw [hcut.whole]
        rfl
      | cons line lines =>
        obtain ⟨hfirst, hinner⟩ := List.forall_mem_cons.mp hcut.inner
        refine ⟨(b :: line) :: lines, last, ?_, List.forall_mem_cons.mpr
          ⟨hline line hfirst, hinner⟩, hcut.rest⟩
        rw [hcut.whole]
        rfl

/-- The first line ends with the first newline, if that comes before the limit. -/
theorem firstLine_line {limit : Nat} {line : Bytes} (h : newline ∉ line)
    (hlimit : line.length < limit) (rest : Bytes) :
    firstLine limit (line ++ newline :: rest) = line ++ [newline] := by
  obtain ⟨more, rfl⟩ : ∃ more, limit = line.length + (more + 1) :=
    ⟨limit - line.length - 1, by omega⟩
  have htake : (line ++ newline :: rest).take (line.length + (more + 1)) =
      line ++ newline :: rest.take more := by
    rw [List.take_length_add_append, List.take_succ_cons]
  have htext : (line ++ newline :: rest.take more).takeWhile (· ≠ newline) = line := by
    have hall : ∀ b ∈ line, decide (b ≠ newline) = true := fun b hb =>
      decide_eq_true fun heq => h (heq ▸ hb)
    rw [List.takeWhile_append_of_pos hall, List.takeWhile_cons_of_neg (by decide),
      List.append_nil]
  unfold firstLine
  dsimp only
  rw [htake, htext, List.getElem?_append_right (Nat.le_refl _), Nat.sub_self,
    List.getElem?_cons_zero, if_pos rfl]

/-- Of a line that does not come to an end before the limit, the bytes before the limit
are read. -/
theorem firstLine_long {limit : Nat} {line : Bytes} (h : newline ∉ line)
    (hlimit : limit ≤ line.length + 1) (rest : Bytes) :
    firstLine limit (line ++ newline :: rest) = (line ++ [newline]).take limit := by
  by_cases hshort : line.length < limit
  · have hall : limit = (line ++ [newline]).length := by
      rw [List.length_append, List.length_singleton]
      omega
    rw [firstLine_line h hshort, hall, List.take_length]
  · have hle : limit ≤ line.length := Nat.not_lt.mp hshort
    have htake : (line ++ newline :: rest).take limit = line.take limit :=
      List.take_append_of_le_length hle
    have htext : (line.take limit).takeWhile (· ≠ newline) = line.take limit := by
      have hall : ∀ b ∈ line.take limit, decide (b ≠ newline) = true := fun b hb =>
        decide_eq_true fun heq => h (heq ▸ List.mem_of_mem_take hb)
      rw [← List.append_nil (line.take limit), List.takeWhile_append_of_pos hall,
        List.takeWhile_nil]
    unfold firstLine
    dsimp only
    rw [htake, htext, List.getElem?_eq_none (Nat.le_refl _), if_neg nofun,
      List.take_append_of_le_length hle]

end RatingServer.Wire
