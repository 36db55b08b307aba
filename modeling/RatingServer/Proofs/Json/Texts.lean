import RatingServer.Proofs.Json.Scanning
import RatingServer.Proofs.Wire.Counting

/-!
# Written texts

A text between quotes is read as that text: each escape is read as the character
that it stands for, and every other character as itself. No written text holds a
character below the space.
-/

namespace RatingServer.Json

/-- The value of a written hexadecimal digit. -/
theorem hexValue?_hexDigit (n : Nat) : Text.hexValue? (hexDigit n) = some (n % 16) := by
  have hall : ∀ k : Fin 16, Text.hexValue? (hexDigit k.val) = some k.val := by decide
  have h := hall ⟨n % 16, Nat.mod_lt _ (by decide)⟩
  have hdigit : hexDigit (n % 16) = hexDigit n := by simp [hexDigit]
  rw [← hdigit]
  exact h

/-- A hexadecimal digit goes on with a unit that is not complete. -/
theorem step_unit {c : Char} {d left value : Nat} (r : TextRead)
    (hc : Text.hexValue? c = some d) (hleft : 1 < left) :
    (Scan.unit r left value).step c = ([], .unit r (left - 1) (16 * value + d)) := by
  have hmore : ¬ left ≤ 1 := by omega
  simp [Scan.step, hc, hmore]

/-- The last hexadecimal digit completes a unit. -/
theorem step_unit_last {c : Char} {d value : Nat} (r : TextRead)
    (hc : Text.hexValue? c = some d) :
    (Scan.unit r 1 value).step c = ([], .text (r.pushUnit (16 * value + d))) := by
  simp [Scan.step, hc]

/-- A unit that is no surrogate is read as its character. -/
theorem pushUnit_toNat {r : TextRead} (hr : r.high = none) {c : Char} (hc : c.toNat < 0x20) :
    r.pushUnit c.toNat = r.push c := by
  have hhigh : isHighSurrogate c.toNat = false := by
    simp [isHighSurrogate]
    omega
  have hlow : isLowSurrogate c.toNat = false := by
    simp [isLowSurrogate]
    omega
  simp [TextRead.pushUnit, hr, hhigh, hlow]

/-- A backslash and the letter of an escape are read as its character. -/
theorem run_shortEscape {c d : Char} (r : TextRead) (hc : c ≠ 'u')
    (hd : shortEscape? c = some d) : (Scan.text r).run ['\\', c] = ([], .text (r.push d)) := by
  have hslash : (Scan.text r).step '\\' = ([], .escape r) := rfl
  have hstep : (Scan.escape r).step c = ([], .text (r.push d)) := by simp [Scan.step, hc, hd]
  rw [Scan.run_cons_of_step hslash, Scan.run_cons_of_step hstep, Scan.run_nil]

/-- The long escape of a character below the space is read as the character. -/
theorem run_longEscape {r : TextRead} (hr : r.high = none) {c : Char} (hc : c.toNat < 0x20) :
    (Scan.text r).run ['\\', 'u', '0', '0', hexDigit (c.toNat / 16), hexDigit c.toNat] =
      ([], .text (r.push c)) := by
  have hslash : (Scan.text r).step '\\' = ([], .escape r) := rfl
  have hunit : (Scan.escape r).step 'u' = ([], .unit r 4 0) := rfl
  have hzero : Text.hexValue? '0' = some 0 := by decide
  have hvalue : 16 * (16 * (16 * (16 * 0 + 0) + 0) + c.toNat / 16 % 16) + c.toNat % 16 =
      c.toNat := by omega
  rw [Scan.run_cons_of_step hslash, Scan.run_cons_of_step hunit,
    Scan.run_cons_of_step (step_unit r hzero (by decide)),
    Scan.run_cons_of_step (step_unit r hzero (by decide)),
    Scan.run_cons_of_step (step_unit r (hexValue?_hexDigit _) (by decide)),
    Scan.run_cons_of_step (step_unit_last r (hexValue?_hexDigit _)), Scan.run_nil, hvalue,
    pushUnit_toNat hr hc]

/-- A character is read from what is written of it. -/
theorem run_escape {r : TextRead} (hr : r.high = none) (c : Char) :
    (Scan.text r).run (escape c) = ([], .text (r.push c)) := by
  unfold escape
  split
  · exact run_shortEscape r (by decide) rfl
  · exact run_shortEscape r (by decide) rfl
  · exact run_shortEscape r (by decide) rfl
  · exact run_shortEscape r (by decide) rfl
  · exact run_shortEscape r (by decide) rfl
  · exact run_shortEscape r (by decide) rfl
  · exact run_shortEscape r (by decide) rfl
  · rename_i hquote hslash _ _ _ _ _
    split
    · exact run_longEscape hr ‹_›
    · rename_i hlow
      have hstep : (Scan.text r).step c = ([], .text (r.push c)) := by
        have hq : c ≠ '"' := hquote
        have hs : c ≠ '\\' := hslash
        simp [Scan.step, hq, hs, hlow]
      rw [Scan.run_cons_of_step hstep, Scan.run_nil]

/-- The characters of a text are read from what is written of them. -/
theorem run_escapes (cs : List Char) {r : TextRead} (hhigh : r.high = none)
    (hpaired : r.paired = true) :
    (Scan.text r).run (cs.flatMap escape) = ([], .text ⟨cs.reverse ++ r.chars, none, true⟩) := by
  induction cs generalizing r with
  | nil =>
    obtain ⟨chars, high, paired⟩ := r
    cases hhigh
    cases hpaired
    rfl
  | cons c cs ih =>
    have hpush : (r.push c).paired = true := by simp [TextRead.push, hhigh, hpaired]
    have hnone : (r.push c).high = none := rfl
    rw [List.flatMap_cons, Scan.run_append, run_escape hhigh, ih hnone hpush]
    simp [TextRead.push]

/-- A written text is read as that text, and ends between tokens. -/
theorem run_textOf (s : String) : Scan.gap.run (textOf s) = ([.str (some s)], .gap) := by
  have hopen : Scan.gap.step '"' = ([], .text {}) := rfl
  have hclose : ∀ r : TextRead, (Scan.text r).step '"' = ([.str r.text?], .gap) := fun _ => rfl
  have hr : ({} : TextRead).high = none := rfl
  have hp : ({} : TextRead).paired = true := rfl
  have htext : TextRead.text? ⟨s.toList.reverse ++ [], none, true⟩ = some s := by
    simp [TextRead.text?]
  rw [textOf, List.cons_append, Scan.run_cons_of_step hopen, Scan.run_append, run_escapes _ hr hp,
    Scan.run_cons, hclose, Scan.run_nil, htext]
  rfl

/-- Of characters that pass the test, none is below the space. -/
theorem not_low_of_all {cs : List Char} (h : cs.all (fun c => decide (0x20 ≤ c.toNat)) = true) :
    ∀ c ∈ cs, 0x20 ≤ c.toNat := fun c hc => of_decide_eq_true (List.all_eq_true.mp h c hc)

/-- No character below the space is written of a character. -/
theorem escape_not_low (c : Char) : ∀ d ∈ escape c, 0x20 ≤ d.toNat := by
  have hhex : ∀ n, 0x20 ≤ (hexDigit n).toNat := fun n => by
    have hall : ∀ k : Fin 16, 0x20 ≤ (Nat.digitChar k.val).toNat := by decide
    exact hall ⟨n % 16, Nat.mod_lt _ (by decide)⟩
  unfold escape
  split
  case h_8 =>
    split
    · intro d hd
      simp only [List.mem_cons, List.not_mem_nil, or_false] at hd
      rcases hd with rfl | rfl | rfl | rfl | rfl | rfl
      · decide
      · decide
      · decide
      · decide
      · exact hhex _
      · exact hhex _
    · intro d hd
      rw [List.mem_singleton.mp hd]
      omega
  all_goals exact not_low_of_all rfl

/-- Something is written of every character. -/
theorem length_escape_pos (c : Char) : 0 < (escape c).length := by
  unfold escape
  split <;> first | exact Nat.succ_pos _ | (split <;> exact Nat.succ_pos _)

/-- A written text is longer than the text. -/
theorem length_lt_textOf (s : String) : s.toList.length < (textOf s).length := by
  have hchars := Wire.length_le_flatMap length_escape_pos s.toList
  rw [textOf, List.length_append, List.length_cons]
  omega

/-- The text of the members of a record is not shorter than that of any of their values. -/
theorem length_le_memberChars {ms : List (String × Json)} {k : String} {j : Json}
    (h : (k, j) ∈ ms) : j.chars.length ≤ (memberChars ms).length := by
  induction ms with
  | nil => cases h
  | cons m ms ih =>
    obtain ⟨k', j'⟩ := m
    cases ms with
    | nil =>
      cases List.mem_singleton.mp h
      rw [memberChars, List.length_append, List.length_cons]
      omega
    | cons m' ms =>
      have hchars : memberChars ((k', j') :: m' :: ms) =
          textOf k' ++ ':' :: j'.chars ++ ',' :: memberChars (m' :: ms) := rfl
      rw [hchars, List.length_append, List.length_append, List.length_cons, List.length_cons]
      obtain heq | hmem := List.mem_cons.mp h
      · cases heq
        omega
      · have hrest := ih hmem
        omega

/-- A written text holds no character below the space. -/
theorem textOf_not_low (s : String) : ∀ c ∈ textOf s, 0x20 ≤ c.toNat := by
  intro c hc
  rw [textOf, List.cons_append, List.mem_cons, List.mem_append, List.mem_singleton] at hc
  rcases hc with rfl | hc | rfl
  · decide
  · obtain ⟨d, -, hd⟩ := List.mem_flatMap.mp hc
    exact escape_not_low d c hd
  · decide

end RatingServer.Json
