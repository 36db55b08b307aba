import Mathlib.Data.List.Induction
import RatingServer.Endpoint

/-!
# The parts of a text

A text is cut at the first or the last place where a character stands, and a numeral is
read as the number that it denotes. Each reader is told by a relation that does not
mention it.
-/

namespace RatingServer

namespace Text

/-- Decimal digits, at least one, and the number that they denote. -/
inductive Digits : List Char → Nat → Prop where
  /-- A single digit. -/
  | one {d : Nat} (hd : d < 10) : Digits [Nat.digitChar d] d
  /-- One more digit at the end. -/
  | more {cs : List Char} {n d : Nat} (h : Digits cs n) (hd : d < 10) :
      Digits (cs ++ [Nat.digitChar d]) (10 * n + d)

/-- A numeral, which may begin with a plus sign, and the number that it denotes. -/
inductive Numeral : List Char → Nat → Prop where
  /-- Without a sign. -/
  | plain {cs : List Char} {n : Nat} (h : Digits cs n) : Numeral cs n
  /-- With a sign. -/
  | signed {cs : List Char} {n : Nat} (h : Digits cs n) : Numeral ('+' :: cs) n

/-- A digit is that of a number below ten. -/
theorem exists_digitChar {c : Char} (h : c.isDigit = true) : ∃ d < 10, Nat.digitChar d = c := by
  simp only [Char.isDigit, Bool.and_eq_true, decide_eq_true_eq] at h
  have hlow : 48 ≤ c.toNat := h.1
  have hhigh : c.toNat ≤ 57 := h.2
  refine ⟨c.toNat - 48, by omega, Char.toNat_inj.mp ?_⟩
  rw [Nat.toNat_digitChar_of_lt_ten (by omega)]
  omega

/-- The parts of the test that digits pass, and their value. -/
theorem digits?_eq_some {cs : List Char} {n : Nat} :
    digits? cs = some n ↔
      cs ≠ [] ∧ (∀ c ∈ cs, c.isDigit = true) ∧ Nat.ofDigitChars 10 cs 0 = n := by
  rw [digits?, Option.ite_none_right_eq_some]
  simp [and_assoc]

/-- A number is read exactly from digits that denote it. -/
theorem digits?_eq_some_iff {cs : List Char} {n : Nat} : digits? cs = some n ↔ Digits cs n := by
  constructor
  · -- The last digit counts least, so the digits are taken from the end.
    induction cs using List.reverseRecOn generalizing n with
    | nil => exact fun h => absurd rfl (digits?_eq_some.mp h).1
    | append_singleton cs c ih =>
      intro h
      obtain ⟨-, hall, rfl⟩ := digits?_eq_some.mp h
      obtain ⟨d, hd, rfl⟩ :=
        exists_digitChar (hall c (List.mem_append_right _ (List.mem_singleton_self c)))
      rw [Nat.ofDigitChars_append, Nat.ofDigitChars_cons_digitChar_of_lt_ten hd,
        Nat.ofDigitChars_nil]
      by_cases hcs : cs = []
      · subst hcs
        rw [Nat.ofDigitChars_nil, Nat.mul_zero, Nat.zero_add]
        exact .one hd
      · have hfirst : ∀ c ∈ cs, c.isDigit = true := fun c hc => hall c (List.mem_append_left _ hc)
        exact .more (ih (digits?_eq_some.mpr ⟨hcs, hfirst, rfl⟩)) hd
  · intro h
    induction h with
    | one hd =>
      refine digits?_eq_some.mpr ⟨List.cons_ne_nil _ _, fun c hc => ?_, ?_⟩
      · rw [List.mem_singleton.mp hc, Nat.isDigit_digitChar]
        exact decide_eq_true hd
      · rw [Nat.ofDigitChars_cons_digitChar_of_lt_ten hd]
        simp
    | more h hd ih =>
      obtain ⟨-, hall, hvalue⟩ := digits?_eq_some.mp ih
      refine digits?_eq_some.mpr ⟨by simp, fun c hc => ?_, ?_⟩
      · rcases List.mem_append.mp hc with hc | hc
        · exact hall c hc
        · rw [List.mem_singleton.mp hc, Nat.isDigit_digitChar]
          exact decide_eq_true hd
      · rw [Nat.ofDigitChars_append, hvalue, Nat.ofDigitChars_cons_digitChar_of_lt_ten hd,
          Nat.ofDigitChars_nil]

/-- The characters of digits. -/
theorem Digits.isDigit {cs : List Char} {n : Nat} (h : Digits cs n) :
    ∀ c ∈ cs, c.isDigit = true :=
  (digits?_eq_some.mp (digits?_eq_some_iff.mpr h)).2.1

/-- A number with an optional sign is read exactly from a numeral of it. -/
theorem natural?_eq_some_iff {cs : List Char} {n : Nat} :
    natural? cs = some n ↔ Numeral cs n := by
  constructor
  · intro h
    unfold natural? at h
    split at h
    · exact .signed (digits?_eq_some_iff.mp h)
    · exact .plain (digits?_eq_some_iff.mp h)
  · rintro (h | h)
    · unfold natural?
      split
      · -- Digits do not begin with a sign.
        exact absurd (h.isDigit '+' List.mem_cons_self) (by decide)
      · exact digits?_eq_some_iff.mpr h
    · exact digits?_eq_some_iff.mpr h

/-- A number below a bound is read exactly from a numeral of it. -/
theorem naturalBelow?_eq_some_iff {bound : Nat} {cs : List Char} {n : Nat} :
    naturalBelow? bound cs = some n ↔ Numeral cs n ∧ n < bound := by
  rw [naturalBelow?, Option.filter_eq_some_iff, natural?_eq_some_iff, decide_eq_true_eq]

/-- A number is printed as a numeral of it. -/
theorem numeral_repr (n : Nat) : Numeral n.repr.toList n := by
  rw [Nat.repr_eq_ofList_toDigits, String.toList_ofList]
  exact .plain (digits?_eq_some_iff.mp (digits?_toDigits n))

/-- A numeral denotes one number. -/
theorem Numeral.unique {cs : List Char} {n m : Nat} (hn : Numeral cs n) (hm : Numeral cs m) :
    n = m := by
  have hread := natural?_eq_some_iff.mpr hn
  rw [natural?_eq_some_iff.mpr hm] at hread
  exact (Option.some.inj hread).symm

/-- A character that is neither a digit nor a plus sign is in no numeral. -/
theorem Numeral.not_mem {cs : List Char} {n : Nat} (h : Numeral cs n) {c : Char}
    (hdigit : c.isDigit = false) (hplus : c ≠ '+') : c ∉ cs := by
  have hout : ∀ {ds : List Char}, Digits ds n → c ∉ ds := fun hds hmem => by
    rw [hds.isDigit c hmem] at hdigit
    cases hdigit
  cases h with
  | plain hds => exact hout hds
  | signed hds => exact List.not_mem_cons_of_ne_of_not_mem hplus (hout hds)

end Text

namespace Endpoint

/-- Where an empty text is cut. -/
theorem splitFirst_nil (separator : List Char) :
    splitFirst separator [] = if separator.isEmpty then some ([], []) else none := rfl

/-- Where a text is cut that has a first character. -/
theorem splitFirst_cons (separator : List Char) (c : Char) (cs : List Char) :
    splitFirst separator (c :: cs) =
      if separator.isPrefixOf (c :: cs) then some ([], (c :: cs).drop separator.length)
      else (splitFirst separator cs).map fun r => (c :: r.1, r.2) := rfl

/-- The texts before and after the first place of a separator make up the text with it. -/
theorem eq_of_splitFirst {separator cs a b : List Char}
    (h : splitFirst separator cs = some (a, b)) : cs = a ++ separator ++ b := by
  induction cs generalizing a with
  | nil =>
    rw [splitFirst_nil, Option.ite_none_right_eq_some] at h
    obtain ⟨hempty, heq⟩ := h
    cases heq
    rw [List.isEmpty_iff.mp hempty]
    rfl
  | cons c cs ih =>
    rw [splitFirst_cons] at h
    by_cases hprefix : separator.isPrefixOf (c :: cs) = true
    · rw [if_pos hprefix] at h
      cases h
      obtain ⟨rest, hrest⟩ := List.isPrefixOf_iff_prefix.mp hprefix
      rw [← hrest, List.drop_left, List.nil_append]
    · rw [if_neg hprefix] at h
      obtain ⟨⟨before, after⟩, hsplit, heq⟩ := Option.map_eq_some_iff.mp h
      cases heq
      rw [ih hsplit]
      rfl

/-- The first character is the one that a text is cut at. -/
theorem splitFirst_cons_self (c : Char) (cs : List Char) :
    splitFirst [c] (c :: cs) = some ([], cs) := by
  rw [splitFirst_cons, if_pos (by simp)]
  rfl

/-- Another first character stays before the cut. -/
theorem splitFirst_cons_of_ne {c d : Char} (h : c ≠ d) (cs : List Char) :
    splitFirst [c] (d :: cs) = (splitFirst [c] cs).map fun r => (d :: r.1, r.2) := by
  rw [splitFirst_cons, if_neg (by simp [h])]

/-- A text is not cut exactly if the character is not in it. -/
theorem splitFirst_eq_none_iff {c : Char} {cs : List Char} :
    splitFirst [c] cs = none ↔ c ∉ cs := by
  induction cs with
  | nil => simp [splitFirst_nil]
  | cons d cs ih =>
    by_cases h : c = d
    · subst h
      simp [splitFirst_cons_self]
    · simp [splitFirst_cons_of_ne h, ih, h]

/-- A text is cut where the character stands, with none of it before. -/
theorem splitFirst_eq_some_iff {c : Char} {cs a b : List Char} :
    splitFirst [c] cs = some (a, b) ↔ cs = a ++ c :: b ∧ c ∉ a := by
  constructor
  · intro h
    induction cs generalizing a with
    | nil => simp [splitFirst_nil] at h
    | cons d cs ih =>
      by_cases hd : c = d
      · rw [hd, splitFirst_cons_self] at h
        cases h
        exact ⟨by rw [hd]; rfl, List.not_mem_nil⟩
      · rw [splitFirst_cons_of_ne hd, Option.map_eq_some_iff] at h
        obtain ⟨⟨before, after⟩, hsplit, heq⟩ := h
        cases heq
        obtain ⟨rfl, hout⟩ := ih hsplit
        exact ⟨rfl, List.not_mem_cons_of_ne_of_not_mem hd hout⟩
  · rintro ⟨rfl, hout⟩
    induction a with
    | nil => exact splitFirst_cons_self c b
    | cons d a ih =>
      rw [List.cons_append, splitFirst_cons_of_ne (List.ne_of_not_mem_cons hout),
        ih (List.not_mem_of_not_mem_cons hout)]
      rfl

/-- A text is cut where the character stands, with none of it after. -/
theorem splitLast_eq_some_iff {c : Char} {cs a b : List Char} :
    splitLast c cs = some (a, b) ↔ cs = a ++ c :: b ∧ c ∉ b := by
  rw [splitLast, Option.map_eq_some_iff]
  constructor
  · rintro ⟨⟨after, before⟩, hsplit, heq⟩
    cases heq
    obtain ⟨hcs, hout⟩ := splitFirst_eq_some_iff.mp hsplit
    refine ⟨?_, by rwa [List.mem_reverse]⟩
    rw [← List.reverse_reverse cs, hcs]
    simp
  · rintro ⟨rfl, hout⟩
    refine ⟨(b.reverse, a.reverse), splitFirst_eq_some_iff.mpr ⟨by simp, ?_⟩, by simp⟩
    rwa [List.mem_reverse]

/-- A host and a port are read exactly from the host, a colon and a numeral of the port. -/
theorem parseAuthority_eq_ok_iff {cs : List Char} {host : String} {port : UInt16} :
    parseAuthority cs = .ok (host, port) ↔
      host ≠ "" ∧ ∃ numeral, Text.Numeral numeral port.toNat ∧ cs = host.toList ++ ':' :: numeral := by
  constructor
  · intro h
    unfold parseAuthority at h
    split at h
    · cases h
    · cases h
    · rename_i hostChars portChars hhost hsplit
      split at h
      · cases h
      · rename_i n hport
        cases h
        obtain ⟨hnumeral, hbound⟩ := Text.naturalBelow?_eq_some_iff.mp hport
        have hsize : (UInt16.ofNat n).toNat = n := UInt16.toNat_ofNat_of_lt' hbound
        refine ⟨fun hempty => hhost (String.ofList_eq_empty_iff.mp hempty), portChars, ?_, ?_⟩
        · rwa [hsize]
        · rw [String.toList_ofList]
          exact (splitLast_eq_some_iff.mp hsplit).1
  · rintro ⟨hne, numeral, hnumeral, rfl⟩
    have hsplit : splitLast ':' (host.toList ++ ':' :: numeral) = some (host.toList, numeral) :=
      splitLast_eq_some_iff.mpr ⟨rfl, hnumeral.not_mem (by decide) (by decide)⟩
    have hport : Text.naturalBelow? UInt16.size numeral = some port.toNat :=
      Text.naturalBelow?_eq_some_iff.mpr ⟨hnumeral, port.toNat_lt⟩
    obtain ⟨c, cs, hhost⟩ : ∃ c cs, host.toList = c :: cs :=
      List.exists_cons_of_ne_nil fun hnil => hne (String.toList_eq_nil_iff.mp hnil)
    rw [parseAuthority, hsplit, hhost]
    simp only [hport]
    rw [← hhost, String.ofList_toList, UInt16.ofNat_toNat]

end Endpoint

end RatingServer
