import Mathlib.Algebra.Group.Int.Defs
import Mathlib.Algebra.Group.Nat.Defs
import RatingServer.Proofs.Decimal.Words

/-!
# The order of all floating-point numbers

The rank of a floating-point number is read off its word. It orders numbers as comparison
does, and puts the positive zero above the negative one, where comparison tells nothing. What
is not a number stands beyond all numbers, below them if its sign bit is set and above them
otherwise, and the farther away the greater its other bits are. Two different words never have
one rank.
-/

namespace RatingServer.Decimal

open Float.Model Float.Model.UnpackedFloat

/-- The number of a word, by its parts. -/
theorem toNat_packComponents (s : Sign) (x : BitVec Format.binary64.exponentBits)
    (m : BitVec Format.binary64.mantissaBitsWithoutImplicit) :
    (packComponents .binary64 s x m).toNat =
      s.toBitVec.toNat * 2 ^ 63 + x.toNat * 2 ^ 52 + m.toNat := by
  have hmantissa : 2 ^ Format.binary64.mantissaBitsWithoutImplicit = 2 ^ 52 := rfl
  have hexponent : 2 ^ Format.binary64.exponentBits = 2 ^ 11 := rfl
  rw [packComponents, BitVec.toNat_append, BitVec.toNat_append,
    ← Nat.shiftLeft_add_eq_or_of_lt m.isLt, ← Nat.shiftLeft_add_eq_or_of_lt x.isLt,
    Nat.shiftLeft_eq, Nat.shiftLeft_eq, hmantissa, hexponent]
  omega

/-- The number of a mantissa with its first bit. -/
theorem toNat_one_append (m : BitVec Format.binary64.mantissaBitsWithoutImplicit) :
    (1#1 ++ m).toNat = 2 ^ 52 + m.toNat := by
  rw [BitVec.toNat_append, ← Nat.shiftLeft_add_eq_or_of_lt m.isLt]
  rfl

/-- The place of a magnitude with a sign. -/
def signedRank : Sign → Int → Int
  | .positive, magnitude => magnitude
  | .negative, magnitude => -1 - magnitude

/-- The sign and the magnitude of a word are those of its parts. -/
theorem parts_of_word (x : Double) :
    (x.isNegative = (Sign.ofBitVec (unpackSign x.word) == .negative)) ∧
      x.magnitude = (unpackExponent x.word).toNat * 2 ^ 52 +
        (unpackMantissa x.word).toNat := by
  have hsign : signBit = 2 ^ 63 := rfl
  have hexponent : (unpackExponent x.word).toNat < 2 ^ 11 :=
    (unpackExponent x.word).isLt
  have hmantissa : (unpackMantissa x.word).toNat < 2 ^ 52 :=
    (unpackMantissa x.word).isLt
  have hword : x.bits.toNat = (Sign.ofBitVec (unpackSign x.word)).toBitVec.toNat * 2 ^ 63 +
      (unpackExponent x.word).toNat * 2 ^ 52 +
        (unpackMantissa x.word).toNat := by
    rw [← toNat_packComponents, packComponents_parts]
    rfl
  rw [Double.isNegative, Double.magnitude, hsign, hword]
  cases Sign.ofBitVec (unpackSign x.word) with
  | positive =>
    have hbit : Sign.positive.toBitVec.toNat = 0 := rfl
    rw [hbit]
    exact ⟨decide_eq_false (by omega), by omega⟩
  | negative =>
    have hbit : Sign.negative.toBitVec.toNat = 1 := rfl
    rw [hbit]
    exact ⟨decide_eq_true (by omega), by omega⟩

/-- The place of a word is that of its magnitude with its sign. -/
theorem rank_eq_signedRank (x : Double) :
    x.rank = signedRank (Sign.ofBitVec (unpackSign x.word)) x.magnitude := by
  rw [Double.rank, (parts_of_word x).1]
  cases Sign.ofBitVec (unpackSign x.word) with
  | positive => rfl
  | negative => rfl

/-- Two words of one rank are the same. -/
theorem rank_inj {x y : Double} : x.rank = y.rank ↔ x = y := by
  refine ⟨fun h => ?_, fun h => h ▸ rfl⟩
  have hsign : signBit = 2 ^ 63 := rfl
  have hx := x.bits.toNat_lt
  have hy := y.bits.toNat_lt
  have hword : x.bits.toNat = y.bits.toNat := by
    simp only [Double.rank, Double.isNegative, Double.magnitude, hsign, decide_eq_true_eq] at h
    omega
  exact congrArg Double.mk (UInt64.toNat_inj.mp hword)

/-- A number stands at a place in the order of all words. -/
inductive Placed : UnpackedFloat → Int → Prop
  /-- An infinity. -/
  | infinity (s : Sign) : Placed (.infinity s) (signedRank s (2047 * 2 ^ 52))
  /-- A zero. -/
  | zero (s : Sign) : Placed (.zero s) (signedRank s 0)
  /-- Any other number. Its significand has its first bit, unless the exponent is the
  smallest. -/
  | finite (s : Sign) (m : Nat) (e : Int) (hpos : 0 < m) (hm : m < 2 ^ 53)
      (hlow : -1074 ≤ e) (hhigh : e ≤ 971) (hfirst : 2 ^ 52 ≤ m ∨ e = -1074) :
      Placed (.finite s m e hpos) (signedRank s ((e + 1074) * 2 ^ 52 + m))

/-- The place of a number of a magnitude. -/
theorem Placed.finite_of_eq {s : Sign} {m : Nat} {e magnitude : Int} {hpos : 0 < m}
    (hm : m < 2 ^ 53) (hlow : -1074 ≤ e) (hhigh : e ≤ 971) (hfirst : 2 ^ 52 ≤ m ∨ e = -1074)
    (hmagnitude : magnitude = (e + 1074) * 2 ^ 52 + m) :
    Placed (.finite s m e hpos) (signedRank s magnitude) :=
  hmagnitude ▸ .finite s m e hpos hm hlow hhigh hfirst

/-- No number stands beyond the two infinities. -/
theorem Placed.bounds {u : UnpackedFloat} {r : Int} (h : Placed u r) :
    -1 - 2047 * 2 ^ 52 ≤ r ∧ r ≤ 2047 * 2 ^ 52 := by
  cases h with
  | infinity s => cases s <;> decide
  | zero s => cases s <;> decide
  | finite s => cases s <;> simp only [signedRank] <;> omega

/-- What a word stands for is at the place of the word, or it is not a number and has a
magnitude above that of infinity. -/
theorem placed_or_notANumber (x : Double) :
    Placed x.unpacked x.rank ∨
      x.unpacked = .notANumber ∧ 2047 * 2 ^ 52 < x.magnitude := by
  have hbias : (Format.binary64.exponentBias : Int) = 1023 := rfl
  have hbits : (Format.binary64.mantissaBitsWithoutImplicit : Int) = 52 := rfl
  have hx : (unpackExponent x.word).toNat < 2048 := (unpackExponent _).isLt
  have hm : (unpackMantissa x.word).toNat < 2 ^ 52 := (unpackMantissa _).isLt
  rw [rank_eq_signedRank, (parts_of_word x).2]
  rw [Double.unpacked]
  generalize x.word = b at hx hm ⊢
  unfold UnpackedFloat.unpack
  dsimp only
  by_cases hgreatest : unpackExponent b = -1#_
  · have hexponent : (unpackExponent b).toNat = 2047 := congrArg BitVec.toNat hgreatest
    rw [if_pos hgreatest, hexponent]
    by_cases hzero : unpackMantissa b = 0#_
    · rw [if_pos hzero, hzero]
      exact .inl (.infinity _)
    · rw [if_neg hzero]
      have hne : (unpackMantissa b).toNat ≠ 0 := fun h => hzero (BitVec.eq_of_toNat_eq h)
      exact .inr ⟨rfl, by omega⟩
  · left
    rw [if_neg hgreatest]
    by_cases hsmall : unpackExponent b = 0#_
    · rw [if_pos hsmall]
      have hsmallest : (unpackExponent b).toNat = 0 := congrArg BitVec.toNat hsmall
      by_cases hzero : unpackMantissa b = 0#_
      · rw [dif_pos hzero, hsmall, hzero]
        exact .zero _
      · rw [dif_neg hzero, hsmallest, hbias, hbits]
        exact .finite_of_eq (by omega) (by omega) (by omega) (.inr (by omega)) (by omega)
    · rw [if_neg hsmall, hbias, hbits]
      have hne : (unpackExponent b).toNat ≠ 2047 := fun h =>
        hgreatest (BitVec.eq_of_toNat_eq h)
      have hne' : (unpackExponent b).toNat ≠ 0 := fun h =>
        hsmall (BitVec.eq_of_toNat_eq h)
      have hone := toNat_one_append (unpackMantissa b)
      exact .finite_of_eq (by omega) (by omega) (by omega) (.inl (by omega)) (by omega)

/-- A number is at the place of its rank. -/
theorem placed_rank {x : Double} (h : x.isNaN = false) :
    Placed x.unpacked x.rank :=
  (placed_or_notANumber x).resolve_right fun hnan => Double.isNaN_eq_false_iff.mp h hnan.1

/-- What is not a number has a magnitude above that of infinity. -/
theorem infinity_lt_magnitude {x : Double} (h : x.isNaN = true) :
    2047 * 2 ^ 52 < x.magnitude := by
  rcases placed_or_notANumber x with hplaced | ⟨-, hlt⟩
  · rw [Double.isNaN_iff.mp h] at hplaced
    cases hplaced
  · exact hlt

/-- Numbers with significands that have their first bit are compared by exponent first. -/
theorem compare_finite_eq_lt_iff {m n : Nat} {e f : Int} (hm : m < 2 ^ 53) (hn : n < 2 ^ 53)
    (he : -1074 ≤ e) (hf : -1074 ≤ f) (hmfirst : 2 ^ 52 ≤ m ∨ e = -1074)
    (hnfirst : 2 ^ 52 ≤ n ∨ f = -1074) :
    (compare e f).then (compare m n) = .lt ↔
      (e + 1074) * 2 ^ 52 + m < (f + 1074) * 2 ^ 52 + n := by
  rw [Ordering.then_eq_lt, Std.compare_eq_lt, Std.compare_eq_lt, Std.compare_eq_iff_eq]
  omega

/-- What a word of a number stands for is above what another one stands for: they are the two
zeros, or it is greater. -/
def exceeds : UnpackedFloat → UnpackedFloat → Bool
  | .zero .positive, .zero .negative => true
  | u, v => UnpackedFloat.lt v u

/-- What is above something, by the two ways to be so. -/
theorem exceeds_iff {u v : UnpackedFloat} :
    exceeds u v = true ↔
      UnpackedFloat.lt v u = true ∨ (u = .zero .positive ∧ v = .zero .negative) := by
  unfold exceeds
  split
  · exact iff_of_true rfl (.inr ⟨rfl, rfl⟩)
  · rename_i hzeros
    exact (or_iff_left fun h => hzeros h.1 h.2).symm

/-- A greater magnitude stands above a smaller one exactly if its sign is positive. -/
theorem signedRank_lt_iff (s t : Sign) {magnitude smaller : Int} (hpos : 0 ≤ smaller)
    (hlt : smaller < magnitude) :
    signedRank t smaller < signedRank s magnitude ↔ (s == .positive) = true := by
  cases s with
  | positive => cases t <;> exact iff_of_true (by simp only [signedRank]; omega) rfl
  | negative => cases t <;> exact iff_of_false (by simp only [signedRank]; omega) nofun

/-- A smaller magnitude stands above a greater one exactly if the sign of the greater one is
negative. -/
theorem lt_signedRank_iff (s t : Sign) {magnitude smaller : Int} (hpos : 0 ≤ smaller)
    (hlt : smaller < magnitude) :
    signedRank s magnitude < signedRank t smaller ↔ (s == .negative) = true := by
  cases s with
  | positive => cases t <;> exact iff_of_false (by simp only [signedRank]; omega) nofun
  | negative => cases t <;> exact iff_of_true (by simp only [signedRank]; omega) rfl

/-- Of two numbers with significands and one sign, those of higher places are above. -/
theorem signedRank_lt_iff_exceeds (s : Sign) {m n : Nat} {e f : Int} (hm : m < 2 ^ 53)
    (hn : n < 2 ^ 53) (he : -1074 ≤ e) (hf : -1074 ≤ f) (hmfirst : 2 ^ 52 ≤ m ∨ e = -1074)
    (hnfirst : 2 ^ 52 ≤ n ∨ f = -1074) (hmpos : 0 < m) (hnpos : 0 < n) :
    signedRank s ((f + 1074) * 2 ^ 52 + n) < signedRank s ((e + 1074) * 2 ^ 52 + m) ↔
      exceeds (.finite s m e hmpos) (.finite s n f hnpos) = true := by
  cases s with
  | positive =>
    have hexceeds : exceeds (.finite .positive m e hmpos) (.finite .positive n f hnpos) =
        (some ((compare f e).then (compare n m)) == some .lt) := rfl
    rw [hexceeds, beq_iff_eq, Option.some_inj,
      compare_finite_eq_lt_iff hn hm hf he hnfirst hmfirst, signedRank, signedRank]
  | negative =>
    have hexceeds : exceeds (.finite .negative m e hmpos) (.finite .negative n f hnpos) =
        (some ((compare f e).then (compare n m)).swap == some .lt) := rfl
    have hswap : ((compare f e).then (compare n m)).swap =
        (compare e f).then (compare m n) := by
      rw [Ordering.swap_then, ← Std.OrientedOrd.eq_swap, ← Std.OrientedOrd.eq_swap]
    rw [hexceeds, beq_iff_eq, Option.some_inj, hswap,
      compare_finite_eq_lt_iff hm hn he hf hmfirst hnfirst, signedRank, signedRank]
    omega

/-- The numbers of higher places are those above. -/
theorem Placed.lt_iff {u v : UnpackedFloat} {r q : Int} (hu : Placed u r) (hv : Placed v q) :
    q < r ↔ exceeds u v = true := by
  cases hu with
  | infinity s =>
    cases hv with
    | infinity t => cases s <;> cases t <;> decide
    | zero t => cases s <;> cases t <;> decide
    | finite t => cases s <;> cases t <;> exact signedRank_lt_iff _ _ (by omega) (by omega)
  | zero s =>
    cases hv with
    | infinity t => cases s <;> cases t <;> decide
    | zero t => cases s <;> cases t <;> decide
    | finite t => cases s <;> cases t <;> exact lt_signedRank_iff _ _ (by omega) (by omega)
  | finite s m e hmpos hm he _ hmfirst =>
    cases hv with
    | infinity t => cases s <;> cases t <;> exact lt_signedRank_iff _ _ (by omega) (by omega)
    | zero t => cases s <;> cases t <;> exact signedRank_lt_iff _ _ (by omega) (by omega)
    | finite t n f hnpos hn hf _ hnfirst =>
      have hsame := fun s => signedRank_lt_iff_exceeds s hm hn he hf hmfirst hnfirst hmpos hnpos
      match s, t with
      | .positive, .positive => exact hsame .positive
      | .negative, .negative => exact hsame .negative
      | .positive, .negative => exact iff_of_true (by simp only [signedRank]; omega) rfl
      | .negative, .positive => exact iff_of_false (by simp only [signedRank]; omega) nofun

/-- A floating-point number is above another one. -/
inductive Above (x y : Double) : Prop
  /-- It is the greater number. -/
  | greater (h : y.toFloat < x.toFloat)
  /-- They are the positive and the negative zero. -/
  | zeros (hx : x = 0.0) (hy : y = -0.0)
  /-- It is not a number and has no sign; the other is a number. -/
  | beyond (hx : x.isNaN = true) (hpos : x.isNegative = false) (hy : y.isNaN = false)
  /-- It is a number; the other is not and has a sign. -/
  | short (hx : x.isNaN = false) (hy : y.isNaN = true) (hneg : y.isNegative = true)
  /-- Neither is a number, and only the other has a sign. -/
  | signs (hx : x.isNaN = true) (hy : y.isNaN = true) (hpos : x.isNegative = false)
    (hneg : y.isNegative = true)
  /-- Neither is a number, neither has a sign, and its other bits are greater. -/
  | farther (hx : x.isNaN = true) (hy : y.isNaN = true) (hpos : x.isNegative = false)
    (hpos' : y.isNegative = false) (h : y.magnitude < x.magnitude)
  /-- Neither is a number, both have a sign, and its other bits are smaller. -/
  | nearer (hx : x.isNaN = true) (hy : y.isNaN = true) (hneg : x.isNegative = true)
    (hneg' : y.isNegative = true) (h : x.magnitude < y.magnitude)

/-- A number is less than another one by what their words stand for. -/
theorem toFloat_lt_iff {x y : Double} : y.toFloat < x.toFloat ↔
    UnpackedFloat.lt y.unpacked x.unpacked =
      true := by
  rw [← Double.unpack_toFloat, ← Double.unpack_toFloat]
  exact decide_eq_true_iff

/-- Only numbers are compared. -/
theorem isNaN_of_lt {x y : Double} (h : y.toFloat < x.toFloat) :
    x.isNaN = false ∧ y.isNaN = false := by
  have hlt := toFloat_lt_iff.mp h
  refine ⟨Double.isNaN_eq_false_iff.mpr fun hx => ?_, Double.isNaN_eq_false_iff.mpr fun hy => ?_⟩
  · rw [hx] at hlt
    cases hy : y.unpacked <;> rw [hy] at hlt <;> cases hlt
  · rw [hy] at hlt
    cases hlt

/-- The numbers of higher ranks are those above. -/
theorem rank_lt_iff_of_numbers {x y : Double} (hx : x.isNaN = false) (hy : y.isNaN = false) :
    y.rank < x.rank ↔ y.toFloat < x.toFloat ∨ (x = 0.0 ∧ y = -0.0) := by
  have hpositive : (0.0 : Double).unpacked = .zero .positive := rfl
  have hnegative : (-0.0 : Double).unpacked = .zero .negative := rfl
  have hzero : ∀ {z w : Double}, z.isNaN = false →
      (z.unpacked = w.unpacked ↔ z = w) :=
    fun hz => ⟨Double.eq_of_unpacked_eq hz, fun h => h ▸ rfl⟩
  rw [(placed_rank hx).lt_iff (placed_rank hy), exceeds_iff, toFloat_lt_iff, ← hpositive,
    ← hnegative, hzero hx, hzero hy]

/-- The floating-point numbers of higher ranks are those above. -/
theorem rank_lt_iff {x y : Double} : y.rank < x.rank ↔ Above x y := by
  have hrank : ∀ z : Double,
      z.rank = if z.isNegative then -1 - (z.magnitude : Int) else z.magnitude := fun _ => rfl
  constructor
  · intro hlt
    cases hx : x.isNaN with
    | false =>
      cases hy : y.isNaN with
      | false =>
        rcases (rank_lt_iff_of_numbers hx hy).mp hlt with hless | ⟨hxzero, hyzero⟩
        · exact .greater hless
        · exact .zeros hxzero hyzero
      | true =>
        have hbound := (placed_rank hx).bounds
        have hbeyond := infinity_lt_magnitude hy
        rw [hrank y] at hlt
        cases hsign : y.isNegative with
        | true => exact .short hx hy hsign
        | false =>
          rw [hsign] at hlt
          simp only [Bool.false_eq_true, if_false] at hlt
          omega
    | true =>
      have hbeyond := infinity_lt_magnitude hx
      cases hy : y.isNaN with
      | false =>
        have hbound := (placed_rank hy).bounds
        rw [hrank x] at hlt
        cases hsign : x.isNegative with
        | false => exact .beyond hx hsign hy
        | true =>
          rw [hsign] at hlt
          simp only [if_true] at hlt
          omega
      | true =>
        rw [hrank x, hrank y] at hlt
        cases hsign : x.isNegative <;> cases hsign' : y.isNegative <;>
          simp only [hsign, hsign', Bool.false_eq_true, if_false, if_true] at hlt
        · exact .farther hx hy hsign hsign' (by omega)
        · exact .signs hx hy hsign hsign'
        · omega
        · exact .nearer hx hy hsign hsign' (by omega)
  · intro habove
    cases habove with
    | greater h =>
      obtain ⟨hx, hy⟩ := isNaN_of_lt h
      exact (rank_lt_iff_of_numbers hx hy).mpr (.inl h)
    | zeros hx hy =>
      subst hx hy
      decide +kernel
    | beyond hx hpos hy =>
      have hbound := (placed_rank hy).bounds
      have hbeyond := infinity_lt_magnitude hx
      rw [hrank x, hpos]
      simp only [Bool.false_eq_true, if_false]
      omega
    | short hx hy hneg =>
      have hbound := (placed_rank hx).bounds
      have hbeyond := infinity_lt_magnitude hy
      rw [hrank y, hneg]
      simp only [if_true]
      omega
    | signs _ _ hpos hneg =>
      rw [hrank x, hrank y, hpos, hneg]
      simp only [Bool.false_eq_true, if_false, if_true]
      omega
    | farther _ _ hpos hpos' h =>
      rw [hrank x, hrank y, hpos, hpos']
      simp only [Bool.false_eq_true, if_false]
      omega
    | nearer _ _ hneg hneg' h =>
      rw [hrank x, hrank y, hneg, hneg']
      simp only [if_true]
      omega

/-- The two zeros are told apart, the sum of two infinities of different signs is below all
numbers, and what has no sign is above them. -/
example : (-0.0 : Double).rank < (0.0 : Double).rank ∧
    ((1.0 / 0.0 : Double) + -(1.0 / 0.0)).rank < (-(1.0 / 0.0) : Double).rank ∧
    (1.0 / 0.0 : Double).rank < (⟨0x7FF0000000000001⟩ : Double).rank := by decide +kernel

end RatingServer.Decimal
