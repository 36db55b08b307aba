import Mathlib.Algebra.Group.Nat.Defs
import RatingServer.Proofs.Decimal.Finite

/-!
# Counts as floating-point numbers

A sum is divided by a count. A count above zero, however large, becomes a number that is not
zero: a number of 53 bits, or infinity.
-/

namespace RatingServer.Decimal

open Float.Model Float.Model.UnpackedFloat

/-- What a word stands for has all of its 53 bits, or is infinite. -/
def NormalOrInf (u : UnpackedFloat) : Prop := (∃ e, Normal e u) ∨ u.isInf = true

/-- A number of 53 bits is packed as one or as infinity. -/
theorem normalOrInf_unpack_pack {e : Int} {u : UnpackedFloat} (h : Normal e u) (he : -1074 ≤ e) :
    NormalOrInf (Float.Model.pack u).unpack := by
  by_cases hmax : e ≤ 971
  · exact .inl ⟨e, normal_unpack_pack h he hmax⟩
  · cases h with
    | finite sign m hpos hm => exact .inr (isInf_unpack_pack sign m hpos (by omega))

/-- A number that has 53 bits or is infinite is not equal to zero. -/
theorem beq_zero_of_normalOrInf {x : Float} (h : NormalOrInf x.toModel.unpack) :
    (x == 0.0) = false := by
  have hbeq : (x == 0.0) = UnpackedFloat.beq x.toModel.unpack (.zero .positive) := rfl
  rw [hbeq]
  generalize x.toModel.unpack = u at h
  rcases h with ⟨e, hnormal⟩ | hinf
  · cases hnormal with
    | finite sign m hpos hm => cases sign <;> rfl
  · cases u with
    | infinity sign => cases sign <;> rfl
    | notANumber => rfl
    | zero sign => cases hinf
    | finite sign m e hpos => cases hinf

/-- The logarithm of a number that is shifted. -/
theorem log2_shiftLeft {m : Nat} (hm : m ≠ 0) (s : Nat) : (m <<< s).log2 = m.log2 + s := by
  have hpow : 2 ^ s ≠ 0 := Nat.pos_iff_ne_zero.mp (Nat.two_pow_pos s)
  have hle := log2_shiftLeft_le m s
  have hge := le_log2_mul hm hpow
  rw [Nat.log2_two_pow, ← Nat.shiftLeft_eq] at hge
  omega

/-- A small count is shifted until it has 53 bits. -/
theorem ofNat_eq_roundWithAccuracy {n : Nat} (hpos : 0 < n) (hlog : n.log2 ≤ 52) :
    UnpackedFloat.ofNat .binary64 n =
      roundWithAccuracy .binary64 .positive (n <<< (52 - n.log2)) (0 - (52 - n.log2 : Nat))
        .exact := by
  have hgt : compare (n : Int) 0 = .gt := Std.compare_eq_gt.mpr (by omega)
  have hshift : (0 - max ((n.log2 : Int) + 1 + 0 - 53) (-1074)).toNat = 52 - n.log2 := by omega
  simp only [UnpackedFloat.ofNat, UnpackedFloat.ofInt, UnpackedFloat.normalize, hgt,
    UnpackedFloat.round, decreaseExponent, totalExponent, targetExponent_eq, Int.toNat_natCast,
    hshift]

/-- A small count is a number of 53 bits. -/
theorem normal_toFloat {n : Nat} (hpos : 0 < n) (hlt : n < 2 ^ 53) :
    ∃ e, Normal e n.toUInt64.toFloat.toModel.unpack ∧ -52 ≤ e ∧ e ≤ 1 := by
  have hlog : n.log2 < 53 := (Nat.log2_lt (by omega)).mpr hlt
  have hword : n.toUInt64.toNat = n := Nat.mod_eq_of_lt (by omega)
  have hmodel : n.toUInt64.toFloat.toModel = Float.Model.pack (UnpackedFloat.ofNat .binary64 n) :=
    congrArg (fun n => Float.Model.pack (UnpackedFloat.ofNat .binary64 n)) hword
  have hshift := log2_shiftLeft (m := n) (by omega) (52 - n.log2)
  obtain ⟨e, hnormal, hlow, hhigh⟩ := roundWithAccuracy_normal .positive
    (m := n <<< (52 - n.log2)) (e := 0 - (52 - n.log2 : Nat)) .exact (by omega) (by omega)
  rw [hmodel, ofNat_eq_roundWithAccuracy hpos (by omega)]
  exact ⟨e, normal_unpack_pack hnormal (by omega) (by omega), by omega, by omega⟩

/-- One is a number of 53 bits. -/
theorem normal_one : Normal (-52) (Float.ofBits 0x3FF0000000000000).toModel.unpack :=
  .finite .positive (2 ^ 52) (by decide) (by decide)

/-- The product of numbers of 53 bits has 53 bits or is infinite, unless it is too small. -/
theorem normalOrInf_mul {x y : Float} {e f : Int} (hx : Normal e x.toModel.unpack)
    (hy : Normal f y.toModel.unpack) (h : -1126 ≤ e + f) :
    NormalOrInf (x * y).toModel.unpack := by
  have hmul : (x * y).toModel = Float.Model.pack
      (UnpackedFloat.mul .binary64 x.toModel.unpack y.toModel.unpack) := rfl
  rw [hmul]
  generalize x.toModel.unpack = u at hx
  generalize y.toModel.unpack = v at hy
  cases hx with
  | finite sign m hpos hm =>
    cases hy with
    | finite sign' m' hpos' hm' =>
      have hge := le_log2_mul (m := m) (n := m') (by omega) (by omega)
      obtain ⟨e', hnormal, hlow, -⟩ := roundWithAccuracy_normal (sign * sign')
        (m := m * m') (e := e + f) .exact (by omega) (by omega)
      exact normalOrInf_unpack_pack hnormal (by omega)

/-- A large count is shifted and rounded. -/
theorem toModel_ofNat {n : Nat} (hlarge : 2 ^ 53 ≤ n) :
    (Float.ofNat n).toModel =
      Float.Model.pack (roundWithAccuracy .binary64 .positive (n <<< 53) (-53) .exact) := by
  have hsafe : ¬ ((0 : Int) > 2 ^ Format.binary64.exponentBits) := by decide
  have hsafe' : ¬ ((0 : Int) < -((2 ^ Format.binary64.exponentBits : Int) + n.log2)) := by
    show ¬ ((0 : Int) < -(2048 + (n.log2 : Int)))
    omega
  have hofNat : Float.ofNat n = Float.ofScientific n false 0 := rfl
  rw [hofNat, Float.ofScientific, dif_neg fun hfast => Nat.not_lt.mpr hlarge hfast.1]
  show Float.Model.pack (UnpackedFloat.ofScientific .binary64 n 0) = _
  rw [UnpackedFloat.ofScientific, dif_neg (by omega), if_neg hsafe, if_neg hsafe',
    if_pos (by decide), ← Nat.mul_one (n <<< 53)]
  rfl

/-- A count above zero is not zero as a floating-point number. -/
theorem ofNat_agrees_zero {n : Nat} (hpos : 0 < n) : (Double.ofNat n).agrees 0.0 = false := by
  have hzero : (0.0 : Double).toFloat = 0.0 := Double.toFloat_ofFloat 0.0
  rw [Double.agrees, hzero, Double.ofNat, Double.toFloat_ofFloat]
  refine beq_zero_of_normalOrInf ?_
  by_cases hlt : n < 2 ^ 53
  · have hfast : Float.ofNat n = n.toUInt64.toFloat * Float.ofBits 0x3FF0000000000000 :=
      dif_pos ⟨hlt, by decide⟩
    obtain ⟨e, hnormal, hlow, -⟩ := normal_toFloat hpos hlt
    rw [hfast]
    exact normalOrInf_mul hnormal normal_one (by omega)
  · have hlog : 53 ≤ n.log2 := (Nat.le_log2 (by omega)).mpr (by omega)
    have hshift := log2_shiftLeft (m := n) (by omega) 53
    obtain ⟨e, hnormal, hlow, -⟩ := roundWithAccuracy_normal .positive (m := n <<< 53) (e := -53)
      .exact (by omega) (by omega)
    rw [toModel_ofNat (by omega)]
    exact normalOrInf_unpack_pack hnormal (by omega)

end RatingServer.Decimal
