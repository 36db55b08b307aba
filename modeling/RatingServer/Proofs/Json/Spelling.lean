import RatingServer.Proofs.Decimal.Digits
import RatingServer.Proofs.Json.Numerals

/-!
# Every number is spelled as one number

Whatever a number is, its text is the text of one token: of a number, or of null if it
is not finite. Nothing is said here of the number that the token denotes. So the text
of a value keeps its shape, even where a number does not read as itself.
-/

namespace RatingServer.Json

open Decimal (Number Literal)

/-- Over the characters the machine completes no token and comes to a phase of a
number. -/
def Reaches (cs : List Char) (phase : Phase) : Prop :=
  ∃ l, Scan.gap.run cs = ([], .number phase l)

namespace Reaches

variable {cs : List Char} {phase next : Phase} {c : Char}

/-- A number goes on with a character. -/
theorem snoc (h : Reaches cs phase) (hstep : ∀ l, ∃ l', extend? phase l c = some (next, l')) :
    Reaches (cs ++ [c]) next := by
  obtain ⟨l, hrun⟩ := h
  obtain ⟨l', hl⟩ := hstep l
  have hnext : (Scan.number phase l).step c = ([], .number next l') := by simp [Scan.step, hl]
  refine ⟨l', ?_⟩
  rw [Scan.run_append, hrun, Scan.run_cons_of_step hnext]
  rfl

/-- A number goes on with digits in a phase that takes them. -/
theorem digits (h : Reaches cs phase)
    (hloop : ∀ l c, c.isDigit = true → ∃ l', extend? phase l c = some (phase, l'))
    (ds : List Char) (hds : ∀ d ∈ ds, d.isDigit = true) : Reaches (cs ++ ds) phase := by
  induction ds generalizing cs with
  | nil => rwa [List.append_nil]
  | cons d ds ih =>
    have hnext := ih (h.snoc fun l => hloop l d (hds d List.mem_cons_self)) fun e he =>
      hds e (List.mem_cons_of_mem _ he)
    rwa [List.append_assoc, List.singleton_append] at hnext

/-- Digits before the point. -/
theorem whole (h : Reaches cs .whole) {ds : List Char} (hds : ∀ d ∈ ds, d.isDigit = true) :
    Reaches (cs ++ ds) .whole :=
  h.digits (fun l c hc => ⟨_, by rw [extend?, if_pos hc]⟩) ds hds

/-- A digit other than zero and more digits, at the beginning or after a minus sign. -/
theorem begin (hcs : cs = [] ∨ cs = ['-']) (hc : c ≠ '0') {ds : List Char}
    (hds : ∀ d ∈ c :: ds, d.isDigit = true) : Reaches (cs ++ c :: ds) .whole := by
  have hdigit : c.isDigit = true := hds c List.mem_cons_self
  have hfirst : Reaches (cs ++ [c]) .whole := by
    rcases hcs with rfl | rfl
    · have hstep : Scan.gap.step c = ([], .number .whole ⟨false, [c], none, false, none⟩) :=
        begin_digit hdigit hc
      exact ⟨_, Scan.run_cons_of_step hstep []⟩
    · have hsign : Reaches ['-'] .sign := ⟨_, rfl⟩
      exact hsign.snoc fun l => ⟨{ l with whole := [c] }, by simp [extend?, hc, hdigit]⟩
  have hnext := hfirst.whole fun d hd => hds d (List.mem_cons_of_mem _ hd)
  rwa [List.append_assoc, List.singleton_append] at hnext

/-- A zero at the beginning or after a minus sign. -/
theorem zero (hcs : cs = [] ∨ cs = ['-']) : Reaches (cs ++ ['0']) .zero := by
  rcases hcs with rfl | rfl <;> exact ⟨_, rfl⟩

/-- A point and digits. -/
theorem fraction (h : Reaches cs phase) (hphase : phase = .zero ∨ phase = .whole)
    (ds : List Char) (hne : ds ≠ []) (hds : ∀ d ∈ ds, d.isDigit = true) : Reaches (cs ++ '.' :: ds) .fraction := by
  obtain ⟨d, ds, rfl⟩ := List.exists_cons_of_ne_nil hne
  have hpoint : Reaches (cs ++ ['.']) .point :=
    h.snoc fun l => by rcases hphase with rfl | rfl <;> exact ⟨_, rfl⟩
  have hfirst : Reaches (cs ++ ['.'] ++ [d]) .fraction :=
    hpoint.snoc fun l => ⟨_, by rw [extend?, if_pos (hds d List.mem_cons_self)]⟩
  have hrest := hfirst.digits (fun l c hc => ⟨_, by rw [extend?, if_pos hc]⟩) ds
    fun e he => hds e (List.mem_cons_of_mem _ he)
  simpa using hrest

/-- An exponent. -/
theorem power (h : Reaches cs phase) (hphase : phase = .zero ∨ phase = .whole ∨ phase = .fraction)
    (e : Int) : Reaches (cs ++ Decimal.exponentText e) .power := by
  have hdigit : ∀ d ∈ Decimal.digitsOf e.natAbs, d.isDigit = true := fun d hd =>
    Nat.isDigit_of_mem_toDigits (by decide) (by decide) hd
  obtain ⟨d, ds, hds⟩ : ∃ d ds, Decimal.digitsOf e.natAbs = d :: ds :=
    List.exists_cons_of_ne_nil Nat.toDigits_ne_nil
  rw [hds] at hdigit
  have hmark : Reaches (cs ++ ['e']) .mark :=
    h.snoc fun l => by rcases hphase with rfl | rfl | rfl <;> exact ⟨_, rfl⟩
  have hsign : Reaches (cs ++ ['e'] ++ [if e < 0 then '-' else '+']) .markSign :=
    hmark.snoc fun l => by split <;> exact ⟨_, rfl⟩
  have hfirst : Reaches (cs ++ ['e'] ++ [if e < 0 then '-' else '+'] ++ [d]) .power :=
    hsign.snoc fun l => ⟨_, by rw [extend?, if_pos (hdigit d List.mem_cons_self)]⟩
  have hrest := hfirst.digits (fun l c hc => ⟨_, by rw [extend?, if_pos hc]⟩) ds
    fun e he => hdigit e (List.mem_cons_of_mem _ he)
  rw [Decimal.exponentText, hds]
  simpa using hrest

/-- A number that is complete is one token. -/
theorem lexes (h : Reaches cs phase) (hphase : phase.complete = true) :
    ∃ n, Lexes cs [.num n] := by
  obtain ⟨l, hrun⟩ := h
  exact ⟨_, Lexes.of_number hrun hphase⟩

end Reaches

/-- The text of an integer is one token. -/
theorem lexes_anyInteger (n : Int) : ∃ m, Lexes (integerText n) [.num m] := by
  have hdigits : ∀ k, 0 < k → ∀ cs : List Char, cs = [] ∨ cs = ['-'] →
      Reaches (cs ++ Decimal.digitsOf k) .whole := fun k hk cs hcs => by
    obtain ⟨c, ds, hds, hc, hdigit⟩ := digitsOf_cons hk
    rw [hds]
    exact .begin hcs hc hdigit
  unfold integerText
  split
  · exact (hdigits n.natAbs (by omega) ['-'] (.inr rfl)).lexes rfl
  · by_cases hzero : n.natAbs = 0
    · rw [hzero]
      exact (Reaches.zero (.inl rfl)).lexes rfl
    · exact (hdigits n.natAbs (by omega) [] (.inl rfl)).lexes rfl

/-- The first digits of a number are complete as they stand, also after a minus
sign. -/
theorem reaches_digits (n : Nat) {cs : List Char} (hcs : cs = [] ∨ cs = ['-']) (count : Nat)
    (hcount : 0 < count) : ∃ phase, (phase = .zero ∨ phase = .whole) ∧
      Reaches (cs ++ (Decimal.digitsOf n).take count) phase := by
  obtain ⟨k, rfl⟩ := Nat.exists_eq_add_of_lt hcount
  rcases Nat.eq_zero_or_pos n with rfl | hpos
  · have hzero : (Decimal.digitsOf 0).take (0 + k + 1) = ['0'] := by
      show ['0'].take (0 + k + 1) = _
      rw [List.take_succ_cons, List.take_nil]
    rw [hzero]
    exact ⟨_, .inl rfl, .zero hcs⟩
  · obtain ⟨c, ds, hds, hc, hdigit⟩ := digitsOf_cons hpos
    rw [hds, List.take_succ_cons]
    refine ⟨_, .inr rfl, .begin hcs hc fun d hd => hdigit d ?_⟩
    rcases List.mem_cons.mp hd with rfl | hd
    · exact List.mem_cons_self
    · exact List.mem_cons_of_mem _ (List.mem_of_mem_take hd)

/-- The text of a decimal is one token, also after a minus sign, unless it is zero
times a power of ten. -/
theorem lexes_scaledText {d : Decimal.Scaled} (hpos : 0 < d.digits ∨ d.exponent ≤ 0)
    {cs : List Char} (hcs : cs = [] ∨ cs = ['-']) : ∃ n, Lexes (cs ++ d.text) [.num n] := by
  have hdigit : ∀ c ∈ Decimal.digitsOf d.digits, c.isDigit = true := fun c hc =>
    Nat.isDigit_of_mem_toDigits (by decide) (by decide) hc
  have hzeros : ∀ n, ∀ c ∈ List.replicate n '0', c.isDigit = true := fun n c hc => by
    rw [List.eq_of_mem_replicate hc]
    rfl
  have hlength : 0 < (Decimal.digitsOf d.digits).length :=
    List.length_pos_iff.mpr Nat.toDigits_ne_nil
  unfold Decimal.Scaled.text
  dsimp only
  split
  · -- A whole number: its digits, zeros, and a point with one more zero.
    rename_i hwhole
    simp only [Bool.and_eq_true, decide_eq_true_eq] at hwhole
    obtain ⟨phase, hphase, hreach⟩ := reaches_digits d.digits hcs _ hlength
    rw [List.take_length] at hreach
    have hfraction : ∃ phase, (phase = .zero ∨ phase = .whole) ∧
        Reaches (cs ++ Decimal.digitsOf d.digits ++ List.replicate d.exponent.toNat '0') phase := by
      rcases hpos with hpos | hexponent
      · obtain ⟨c, ds, hds, hc, hdigits⟩ := digitsOf_cons hpos
        rw [hds]
        exact ⟨_, .inr rfl, (Reaches.begin hcs hc hdigits).whole (hzeros _)⟩
      · have hnone : d.exponent.toNat = 0 := by omega
        rw [hnone, List.replicate_zero, List.append_nil]
        exact ⟨phase, hphase, hreach⟩
    obtain ⟨phase, hphase, hreach⟩ := hfraction
    have hend := hreach.fraction hphase ['0'] (by simp) (hzeros 1)
    simpa using hend.lexes rfl
  · split
    · -- A point among the digits.
      rename_i hnot hpoint
      simp only [Bool.and_eq_true, decide_eq_true_eq] at hnot hpoint
      obtain ⟨phase, hphase, hreach⟩ := reaches_digits d.digits hcs
        ((Decimal.digitsOf d.digits).length + d.exponent).toNat (by omega)
      have hdrop : (Decimal.digitsOf d.digits).drop
          ((Decimal.digitsOf d.digits).length + d.exponent).toNat ≠ [] := by
        rw [Ne, List.drop_eq_nil_iff]
        omega
      have hend := hreach.fraction hphase _ hdrop fun c hc => hdigit c (List.mem_of_mem_drop hc)
      simpa using hend.lexes rfl
    · split
      · -- Zeros after the point, then the digits.
        have hend := (Reaches.zero hcs).fraction (.inl rfl)
          (List.replicate (-((Decimal.digitsOf d.digits).length + d.exponent)).toNat '0' ++
            Decimal.digitsOf d.digits)
          (by simp [Nat.toDigits_ne_nil, Decimal.digitsOf])
          fun c hc => (List.mem_append.mp hc).elim (hzeros _ c) (hdigit c)
        simpa using hend.lexes rfl
      · -- An exponent.
        obtain ⟨phase, hphase, hreach⟩ := reaches_digits d.digits hcs 1 (Nat.succ_pos 0)
        generalize ((Decimal.digitsOf d.digits).length + d.exponent - 1 : Int) = e
        split
        · rename_i hnil
          rw [hnil] at hlength
          exact absurd hlength (Nat.lt_irrefl 0)
        · rename_i c hds
          rw [hds] at hreach
          have hend := hreach.power (hphase.imp id .inl) e
          simpa using hend.lexes rfl
        · rename_i c ds hne hds
          rw [hds] at hreach hdigit
          have hfraction := hreach.fraction hphase ds hne fun e he =>
            hdigit e (List.mem_cons_of_mem _ he)
          have hend := hfraction.power (.inr (.inr rfl)) e
          simpa using hend.lexes rfl

/-- The text of a number is one token, of a number or of null. -/
theorem lexes_anyNumber (n : Number) :
    ∃ t, Lexes (numberText n) [t] ∧ (t.isNumber = true ∨ t = .null) := by
  have hnumber : ∀ {cs : List Char}, (∃ m, Lexes cs [.num m]) →
      ∃ t, Lexes cs [t] ∧ (t.isNumber = true ∨ t = .null) :=
    fun ⟨m, h⟩ => ⟨.num m, h, .inl rfl⟩
  cases n with
  | integer k => exact hnumber (lexes_anyInteger k)
  | real x =>
    rw [numberText, Decimal.text?]
    by_cases hfinite : x.isFinite = true
    · have hsign : (if x.isNegative = true then ['-'] else []) = [] ∨
          (if x.isNegative = true then ['-'] else []) = ['-'] := by
        split
        · exact .inr rfl
        · exact .inl rfl
      rw [if_pos hfinite]
      dsimp only
      split
      · have hend := (Reaches.zero hsign).fraction (.inl rfl) ['0'] (List.cons_ne_nil _ _)
          (List.forall_mem_singleton.mpr rfl)
        exact hnumber (by simpa using hend.lexes rfl)
      · rename_i hzero
        obtain ⟨hne, hlog, hexponent⟩ := Decimal.Binary.ofBits_bounds hzero
        exact hnumber (lexes_scaledText (Decimal.Binary.shortest_pos hne hlog hexponent) hsign)
    · rw [if_neg hfinite]
      exact ⟨.null, .of_run rfl, .inr rfl⟩

end RatingServer.Json
