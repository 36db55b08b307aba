import RatingServer.Proofs.Json.Scanning

/-!
# Written numbers

The decimal digits of an integer are read as that integer. The text of a
floating-point number is made of digits, signs, a point and an exponent mark; only a
finite number can read back from its text.
-/

namespace RatingServer.Json

open Decimal (Number Literal)

/-- The ten digits. -/
theorem digit_cases {c : Char} (h : c.isDigit = true) :
    c = '0' ∨ c = '1' ∨ c = '2' ∨ c = '3' ∨ c = '4' ∨ c = '5' ∨ c = '6' ∨ c = '7' ∨ c = '8' ∨
      c = '9' := by
  simp only [Char.isDigit, Bool.and_eq_true, decide_eq_true_eq] at h
  have hlow : 48 ≤ c.toNat := h.1
  have hhigh : c.toNat ≤ 57 := h.2
  have heq : ∀ d : Char, c.toNat = d.toNat → c = d := fun d hd => Char.toNat_inj.mp hd
  have hcases : c.toNat = 48 ∨ c.toNat = 49 ∨ c.toNat = 50 ∨ c.toNat = 51 ∨ c.toNat = 52 ∨
      c.toNat = 53 ∨ c.toNat = 54 ∨ c.toNat = 55 ∨ c.toNat = 56 ∨ c.toNat = 57 := by omega
  exact hcases.imp (heq '0') <| .imp (heq '1') <| .imp (heq '2') <| .imp (heq '3') <|
    .imp (heq '4') <| .imp (heq '5') <| .imp (heq '6') <| .imp (heq '7') <|
    .imp (heq '8') (heq '9')

/-- A digit other than zero begins a number. -/
theorem begin_digit {c : Char} (h : c.isDigit = true) (hzero : c ≠ '0') :
    begin c = ([], .number .whole ⟨false, [c], none, false, none⟩) := by
  rcases digit_cases h with rfl | rfl | rfl | rfl | rfl | rfl | rfl | rfl | rfl | rfl
  · exact absurd rfl hzero
  all_goals rfl

/-- Digits go on with the digits before the point. -/
theorem run_digits {ds : List Char} (hds : ∀ c ∈ ds, c.isDigit = true) (l : Literal) :
    (Scan.number .whole l).run ds =
      ([], .number .whole { l with whole := ds.reverse ++ l.whole }) := by
  induction ds generalizing l with
  | nil => rfl
  | cons c ds ih =>
    have hc : c.isDigit = true := hds c List.mem_cons_self
    have hstep : (Scan.number .whole l).step c =
        ([], .number .whole { l with whole := c :: l.whole }) := by
      simp [Scan.step, extend?, hc]
    rw [Scan.run_cons_of_step hstep, ih fun d hd => hds d (List.mem_cons_of_mem _ hd)]
    simp

/-- The digits of a positive number begin with another digit than zero. -/
theorem digitsOf_cons {n : Nat} (h : 0 < n) :
    ∃ c ds, Decimal.digitsOf n = c :: ds ∧ c ≠ '0' ∧ ∀ d ∈ c :: ds, d.isDigit = true := by
  have hdigit : ∀ d ∈ Decimal.digitsOf n, d.isDigit = true := fun d hd =>
    Nat.isDigit_of_mem_toDigits (by decide) (by decide) hd
  have hhead : ∃ c ds, Nat.toDigits 10 n = c :: ds ∧ c ≠ '0' := by
    induction n using Nat.strongRecOn with
    | ind n ih =>
      by_cases hn : n < 10
      · have hnum : n = 1 ∨ n = 2 ∨ n = 3 ∨ n = 4 ∨ n = 5 ∨ n = 6 ∨ n = 7 ∨ n = 8 ∨ n = 9 := by
          omega
        rw [Nat.toDigits_of_lt_base hn]
        refine ⟨_, _, rfl, ?_⟩
        rcases hnum with rfl | rfl | rfl | rfl | rfl | rfl | rfl | rfl | rfl <;> decide
      · obtain ⟨c, ds, hcs, hc⟩ := ih (n / 10) (by omega) (by omega) fun d hd =>
          Nat.isDigit_of_mem_toDigits (by decide) (by decide) hd
        refine ⟨c, ds ++ [(n % 10).digitChar], ?_, hc⟩
        rw [Nat.toDigits_of_base_le (by decide) (by omega), hcs, List.cons_append]
  obtain ⟨c, ds, hcs, hc⟩ := hhead
  refine ⟨c, ds, hcs, hc, fun d hd => hdigit d ?_⟩
  rw [Decimal.digitsOf, hcs]
  exact hd

/-- The integers that can be read back: those that fit the machine words of their sign. -/
def fitsWord (n : Int) : Bool :=
  -(Decimal.significandBound / 2 : Nat) ≤ n && n < (Decimal.significandBound : Nat)

/-- The digits of a positive number denote it. -/
theorem ofDigitChars_digitsOf (n : Nat) : Nat.ofDigitChars 10 (Decimal.digitsOf n) 0 = n :=
  Nat.ofDigitChars_ten_toDigits

/-- The text of a natural number is read as that number. -/
theorem lexes_digits {n : Nat} (h : n < Decimal.significandBound) :
    Lexes (Decimal.digitsOf n) [.num (some (.integer n))] := by
  rcases Nat.eq_zero_or_pos n with rfl | hpos
  · have hrun : Scan.gap.run ['0'] = ([], .number .zero ⟨false, ['0'], none, false, none⟩) := rfl
    exact Lexes.of_number hrun rfl
  · obtain ⟨c, ds, hcs, hc, hdigit⟩ := digitsOf_cons hpos
    have hds : ∀ d ∈ ds, d.isDigit = true := fun d hd => hdigit d (List.mem_cons_of_mem _ hd)
    have hfirst : Scan.gap.step c = ([], .number .whole ⟨false, [c], none, false, none⟩) :=
      begin_digit (hdigit c List.mem_cons_self) hc
    have hrun : Scan.gap.run (c :: ds) =
        ([], .number .whole ⟨false, ds.reverse ++ [c], none, false, none⟩) := by
      rw [Scan.run_cons_of_step hfirst, run_digits hds]
    have hnumber : Literal.number? ⟨false, ds.reverse ++ [c], none, false, none⟩ =
        some (.integer n) := by
      have hvalue := ofDigitChars_digitsOf n
      rw [hcs] at hvalue
      simp [Literal.number?, hvalue, h]
    rw [hcs, ← hnumber]
    exact Lexes.of_number hrun rfl

/-- The text of a negative number is read as that number. -/
theorem lexes_negative {n : Nat} (hpos : 0 < n) (h : n ≤ Decimal.significandBound / 2) :
    Lexes ('-' :: Decimal.digitsOf n) [.num (some (.integer (-n)))] := by
  obtain ⟨c, ds, hcs, hc, hdigit⟩ := digitsOf_cons hpos
  have hds : ∀ d ∈ ds, d.isDigit = true := fun d hd => hdigit d (List.mem_cons_of_mem _ hd)
  have hminus : Scan.gap.step '-' = ([], .number .sign ⟨true, [], none, false, none⟩) := rfl
  have hfirst : (Scan.number .sign ⟨true, [], none, false, none⟩).step c =
      ([], .number .whole ⟨true, [c], none, false, none⟩) := by
    simp [Scan.step, extend?, hc, hdigit c List.mem_cons_self]
  have hrun : Scan.gap.run ('-' :: c :: ds) =
      ([], .number .whole ⟨true, ds.reverse ++ [c], none, false, none⟩) := by
    rw [Scan.run_cons_of_step hminus, Scan.run_cons_of_step hfirst, run_digits hds]
  have hnumber : Literal.number? ⟨true, ds.reverse ++ [c], none, false, none⟩ =
      some (.integer (-n)) := by
    have hvalue := ofDigitChars_digitsOf n
    rw [hcs] at hvalue
    have hne : n ≠ 0 := by omega
    simp [Literal.number?, hvalue, h, hne]
  rw [hcs, ← hnumber]
  exact Lexes.of_number hrun rfl

/-- The text of an integer that fits is read as that integer. -/
theorem lexes_integerText {n : Int} (h : fitsWord n = true) :
    Lexes (integerText n) [.num (some (.integer n))] := by
  simp only [fitsWord, Bool.and_eq_true, decide_eq_true_eq] at h
  unfold integerText
  split
  · have hneg : n = -(n.natAbs : Int) := by omega
    have hlex := lexes_negative (n := n.natAbs) (by omega) (by omega)
    rwa [← hneg] at hlex
  · have hnat : n = (n.natAbs : Int) := by omega
    have hlex := lexes_digits (n := n.natAbs) (by omega)
    rwa [← hnat] at hlex

/-- The characters of which numbers are written. -/
def isNumeric (c : Char) : Bool := c.isDigit || c == '.' || c == 'e' || c == '+' || c == '-'

/-- The text of a floating-point number, standing alone, reads as that number. -/
def ReadsBack (x : Double) : Prop :=
  Document.parse (numberText (.real x)) = (.num (some (.real x)), true)

/-- The tokens of numbers. -/
def Token.isNumber : Token → Bool
  | .num _ => true
  | _ => false

/-- Digits are numeric characters. -/
theorem isNumeric_of_isDigit {c : Char} (h : c.isDigit = true) : isNumeric c = true := by
  simp [isNumeric, h]

/-- The digits of a number are numeric characters. -/
theorem isNumeric_digitsOf {n : Nat} {c : Char} (h : c ∈ Decimal.digitsOf n) :
    isNumeric c = true :=
  isNumeric_of_isDigit (Nat.isDigit_of_mem_toDigits (by decide) (by decide) h)

/-- The exponent part is made of numeric characters. -/
theorem isNumeric_exponentText {e : Int} {c : Char} (h : c ∈ Decimal.exponentText e) :
    isNumeric c = true := by
  rw [Decimal.exponentText, List.mem_cons, List.mem_cons] at h
  rcases h with rfl | rfl | h
  · rfl
  · split <;> rfl
  · exact isNumeric_digitsOf h

/-- The text of a positive decimal is made of numeric characters. -/
theorem isNumeric_scaledText {d : Decimal.Scaled} {c : Char} (h : c ∈ d.text) :
    isNumeric c = true := by
  have hzeros : ∀ n, c ∈ List.replicate n '0' → isNumeric c = true := fun n hc => by
    rw [List.eq_of_mem_replicate hc]
    rfl
  have hdigits : ∀ cs, cs ⊆ Decimal.digitsOf d.digits → c ∈ cs → isNumeric c = true :=
    fun cs hcs hc => isNumeric_digitsOf (hcs hc)
  unfold Decimal.Scaled.text at h
  dsimp only at h
  split at h
  · rcases List.mem_append.mp h with h | h
    · rcases List.mem_append.mp h with h | h
      · exact isNumeric_digitsOf h
      · exact hzeros _ h
    · simp only [List.mem_cons, List.not_mem_nil, or_false] at h
      rcases h with rfl | rfl <;> rfl
  · split at h
    · rcases List.mem_append.mp h with h | h
      · exact hdigits _ (List.take_subset _ _) h
      · rcases List.mem_cons.mp h with rfl | h
        · rfl
        · exact hdigits _ (List.drop_subset _ _) h
    · split at h
      · rw [List.cons_append, List.cons_append, List.mem_cons, List.mem_cons] at h
        rcases h with rfl | rfl | h
        · rfl
        · rfl
        · rcases List.mem_append.mp h with h | h
          · exact hzeros _ h
          · exact isNumeric_digitsOf h
      · split at h
        · cases h
        · rename_i a hds
          rcases List.mem_cons.mp h with rfl | h
          · exact hdigits [c] (by rw [hds]; exact fun _ hc => hc) List.mem_cons_self
          · exact isNumeric_exponentText h
        · rename_i a as _ hds
          rcases List.mem_append.mp h with h | h
          · rcases List.mem_cons.mp h with rfl | h
            · exact hdigits [c] (by rw [hds]; simp) List.mem_cons_self
            · rcases List.mem_cons.mp h with rfl | h
              · rfl
              · exact hdigits as (by rw [hds]; exact List.subset_cons_self _ _) h
          · exact isNumeric_exponentText h

/-- The text of a finite number is made of numeric characters. -/
theorem isNumeric_text {x : Double} {cs : List Char} (h : Decimal.text? x = some cs) :
    ∀ c ∈ cs, isNumeric c = true := by
  intro c hc
  unfold Decimal.text? at h
  split at h
  · dsimp only at h
    have hsign : ∀ d ∈ (if x.isNegative = true then ['-'] else []),
        isNumeric d = true := by
      intro d hd
      split at hd
      · rw [List.mem_singleton.mp hd]
        rfl
      · cases hd
    split at h
    · cases h
      rcases List.mem_append.mp hc with hc | hc
      · exact hsign c hc
      · simp only [List.mem_cons, List.not_mem_nil, or_false] at hc
        rcases hc with rfl | rfl | rfl <;> rfl
    · cases h
      rcases List.mem_append.mp hc with hc | hc
      · exact hsign c hc
      · exact isNumeric_scaledText hc
  · cases h

/-- Only finite numbers read back. -/
theorem ReadsBack.isFinite {x : Double} (h : ReadsBack x) : x.isFinite = true := by
  cases hx : x.isFinite with
  | true => rfl
  | false =>
    have htext : numberText (.real x) = ['n', 'u', 'l', 'l'] := by
      simp [numberText, Decimal.text?, hx]
    rw [ReadsBack, htext] at h
    have hnull : Document.parse ['n', 'u', 'l', 'l'] = (.null, true) := rfl
    rw [hnull] at h
    cases h

end RatingServer.Json
