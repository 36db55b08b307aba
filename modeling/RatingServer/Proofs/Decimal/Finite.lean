import RatingServer.Proofs.Decimal.Words

/-!
# Numbers of literals are finite

Rounding never puts the exponent of a result much above the size of what is
rounded. So a finite number divided by a power of ten, an integer of 64 bits as a
floating-point number, and every number that a literal denotes are finite.
-/

namespace RatingServer.Decimal

open Float.Model Float.Model.UnpackedFloat

/-- The number is zero, or its mantissa has at most 53 bits and its exponent is not
above a bound. -/
inductive Within (top : Int) : UnpackedFloat → Prop
  /-- Zero. -/
  | zero (sign : Sign) : Within top (.zero sign)
  /-- A number other than zero. -/
  | finite (sign : Sign) (m : Nat) (e : Int) (hpos : 0 < m) (hm : m.log2 ≤ 52) (he : e ≤ top) :
    Within top (.finite sign m e hpos)

/-- A greater bound will do as well. -/
theorem Within.mono {top top' : Int} {u : UnpackedFloat} (h : Within top u) (hle : top ≤ top') :
    Within top' u := by
  cases h with
  | zero sign => exact .zero sign
  | finite sign m e hpos hm he => exact .finite sign m e hpos hm (by omega)

/-- The number has all of its 53 bits, at an exponent. -/
inductive Normal (e : Int) : UnpackedFloat → Prop
  /-- A number with a mantissa of 53 bits. -/
  | finite (sign : Sign) (m : Nat) (hpos : 0 < m) (hm : m.log2 = 52) :
    Normal e (.finite sign m e hpos)

/-- Such a number is finite. -/
theorem Within.isFinite {top : Int} {u : UnpackedFloat} (h : Within top u) :
    u.isFinite = true := by
  cases h <;> rfl

/-- A half has a logarithm that is one less. -/
theorem log2_half (n : Nat) : (n / 2).log2 = n.log2 - 1 := by
  rw [Nat.log2_def n]
  split
  · omega
  · have hhalf : n / 2 = 0 := by omega
    rw [hhalf]
    rfl

/-- One more raises the logarithm by at most one. -/
theorem log2_succ_le (n : Nat) : (n + 1).log2 ≤ n.log2 + 1 := by
  induction n using Nat.strongRecOn with
  | ind n ih =>
    rw [Nat.log2_def (n + 1)]
    split
    · by_cases hodd : n % 2 = 1
      · have hhalf : (n + 1) / 2 = n / 2 + 1 := by omega
        have hle := ih (n / 2) (by omega)
        rw [hhalf]
        rw [log2_half] at hle
        by_cases hn : 2 ≤ n
        · rw [Nat.log2_def n, if_pos hn] at hle ⊢
          omega
        · have hone : n = 1 := by omega
          subst hone
          decide
      · have hhalf : (n + 1) / 2 = n / 2 := by omega
        rw [hhalf, log2_half]
        omega
    · omega

/-- A smaller number has no greater logarithm. -/
theorem log2_mono {m n : Nat} (h : m ≤ n) : m.log2 ≤ n.log2 := by
  by_cases hm : m = 0
  · rw [hm, Nat.log2_zero]
    exact Nat.zero_le _
  · rw [Nat.le_log2 (by omega)]
    exact Nat.le_trans (Nat.log2_self_le hm) h

/-- The logarithm of a product. -/
theorem log2_mul_le (m n : Nat) : (m * n).log2 ≤ m.log2 + n.log2 + 1 := by
  by_cases h : m * n = 0
  · rw [h, Nat.log2_zero]
    exact Nat.zero_le _
  · have hm : m < 2 ^ (m.log2 + 1) := Nat.lt_log2_self
    have hn : n < 2 ^ (n.log2 + 1) := Nat.lt_log2_self
    have hmul : m * n < 2 ^ (m.log2 + n.log2 + 2) := by
      have hpow : 2 ^ (m.log2 + n.log2 + 2) = 2 ^ (m.log2 + 1) * 2 ^ (n.log2 + 1) := by
        rw [← Nat.pow_add]
        congr 1
        omega
      rw [hpow]
      exact Nat.mul_lt_mul'' hm hn
    have := (Nat.log2_lt h).mpr hmul
    omega

/-- The logarithm of a product is at least the sum of the logarithms. -/
theorem le_log2_mul {m n : Nat} (hm : m ≠ 0) (hn : n ≠ 0) : m.log2 + n.log2 ≤ (m * n).log2 := by
  rw [Nat.le_log2 (Nat.mul_ne_zero hm hn), Nat.pow_add]
  exact Nat.mul_le_mul (Nat.log2_self_le hm) (Nat.log2_self_le hn)

/-- The logarithm of a shifted number. -/
theorem log2_shiftLeft_le (m s : Nat) : (m <<< s).log2 ≤ m.log2 + s := by
  by_cases h : m <<< s = 0
  · rw [h, Nat.log2_zero]
    exact Nat.zero_le _
  · have hm : m < 2 ^ (m.log2 + 1) := Nat.lt_log2_self
    have hshift : m <<< s < 2 ^ (m.log2 + 1 + s) := by
      rw [Nat.shiftLeft_eq, Nat.pow_add]
      exact Nat.mul_lt_mul_of_pos_right hm (Nat.two_pow_pos s)
    have := (Nat.log2_lt h).mpr hshift
    omega

/-- The logarithm of a quotient. -/
theorem log2_div_le {m n : Nat} (hn : n ≠ 0) (h : m / n ≠ 0) :
    (m / n).log2 + n.log2 ≤ m.log2 := by
  have hm : m ≠ 0 := by
    rintro rfl
    exact h (Nat.zero_div n)
  have hq : 2 ^ (m / n).log2 ≤ m / n := Nat.log2_self_le h
  have hd : 2 ^ n.log2 ≤ n := Nat.log2_self_le hn
  rw [Nat.le_log2 hm, Nat.pow_add]
  calc 2 ^ (m / n).log2 * 2 ^ n.log2 ≤ (m / n) * n := Nat.mul_le_mul hq hd
    _ ≤ m := Nat.div_mul_le_self m n

/-- Shifting right halves the mantissa at every step. -/
theorem log2_shiftRight (em : ExtendedMantissa) (k : Nat) :
    (em >>> k).mantissa.log2 = em.mantissa.log2 - k := by
  induction k with
  | zero => rfl
  | succ k ih =>
    have hstep : (em >>> (k + 1)).mantissa = (em >>> k).mantissa / 2 := rfl
    rw [hstep, log2_half, ih]
    omega

/-- Rounding adds nothing or one. -/
theorem roundedMantissa_bounds (em : ExtendedMantissa) :
    em.mantissa ≤ em.roundedMantissa ∧ em.roundedMantissa ≤ em.mantissa + 1 := by
  obtain ⟨m, r, s⟩ := em
  cases r <;> cases s <;>
    simp only [ExtendedMantissa.roundedMantissa, ExtendedMantissa.accuracy,
      Accuracy.roundToNearestEven] <;> omega

/-- The exponent that a number of some size should have. -/
theorem targetExponent_eq (t : Int) :
    Format.binary64.targetExponent t = max (t - 53) (-1074) := rfl

/-- A shift to the target exponent of a number takes as many bits from its mantissa as
it adds to its exponent. -/
theorem shift_eq (m : Nat) (e : Int) (acc : Accuracy) :
    (shiftToTargetExponent .binary64 m e acc).1.mantissa.log2 =
        m.log2 - (max (m.log2 + 1 + e - 53) (-1074) - e).toNat ∧
      (shiftToTargetExponent .binary64 m e acc).2 =
        max e (max (m.log2 + 1 + e - 53) (-1074)) := by
  have hinit : (ExtendedMantissa.ofMantissaAndAccuracy m acc).mantissa = m := by
    cases acc with
    | exact => rfl
    | inexact o => cases o <;> rfl
  simp only [shiftToTargetExponent, shiftToExponent, totalExponent, targetExponent_eq]
  rw [log2_shiftRight, hinit]
  omega

/-- Rounding keeps the exponent near the size of what is rounded. -/
theorem within_roundWithAccuracy (sign : Sign) (m : Nat) (e : Int) (acc : Accuracy) :
    Within (max e (max (m.log2 + 1 + e - 53) (-1074)) + 1)
      (roundWithAccuracy .binary64 sign m e acc) := by
  have hfirst := shift_eq m e acc
  unfold roundWithAccuracy
  generalize shiftToTargetExponent .binary64 m e acc = first at hfirst
  obtain ⟨em, e₁⟩ := first
  dsimp only at hfirst ⊢
  have hrounded : em.roundedMantissa.log2 ≤ 53 := by
    have hle := log2_mono (roundedMantissa_bounds em).2
    have hsucc := log2_succ_le em.mantissa
    omega
  have hsecond := shift_eq em.roundedMantissa e₁ .exact
  generalize shiftToTargetExponent .binary64 em.roundedMantissa e₁ .exact = second at hsecond
  obtain ⟨em₂, e₂⟩ := second
  dsimp only at hsecond ⊢
  by_cases hzero : em₂.mantissa = 0
  · rw [dif_pos hzero]
    exact .zero sign
  · rw [dif_neg hzero]
    exact .finite sign _ _ _ (by omega) (by omega)

/-- Of a number with at least 53 bits, 53 are left by rounding. -/
theorem roundWithAccuracy_normal (sign : Sign) {m : Nat} {e : Int} (acc : Accuracy)
    (hm : 52 ≤ m.log2) (he : -1022 ≤ m.log2 + e) :
    ∃ e', Normal e' (roundWithAccuracy .binary64 sign m e acc) ∧
      m.log2 + e - 52 ≤ e' ∧ e' ≤ m.log2 + e - 51 := by
  have hfirst := shift_eq m e acc
  unfold roundWithAccuracy
  generalize shiftToTargetExponent .binary64 m e acc = first at hfirst
  obtain ⟨em, e₁⟩ := first
  dsimp only at hfirst ⊢
  have hlow := log2_mono (roundedMantissa_bounds em).1
  have hhigh := log2_mono (roundedMantissa_bounds em).2
  have hsucc := log2_succ_le em.mantissa
  have hsecond := shift_eq em.roundedMantissa e₁ .exact
  generalize shiftToTargetExponent .binary64 em.roundedMantissa e₁ .exact = second at hsecond
  obtain ⟨em₂, e₂⟩ := second
  dsimp only at hsecond ⊢
  by_cases hzero : em₂.mantissa = 0
  · rw [hzero, Nat.log2_zero] at hsecond
    omega
  · rw [dif_neg hzero]
    exact ⟨_, .finite sign _ _ (by omega), by omega, by omega⟩

/-- Bits whose exponent field is not the greatest are those of a finite number. -/
theorem within_unpack (b : BitVec 64)
    (h : (@unpackExponent .binary64 b).toNat ≤ 2046) :
    Within (max ((@unpackExponent .binary64 b).toNat - 1075) (-1074))
      (UnpackedFloat.unpack .binary64 b) := by
  have hbias : (Format.binary64.exponentBias : Int) = 1023 := rfl
  have hbits : (Format.binary64.mantissaBitsWithoutImplicit : Int) = 52 := rfl
  have hmant : ∀ v : BitVec 52, v.toNat.log2 ≤ 52 := by
    intro v
    by_cases hv : v.toNat = 0
    · rw [hv]
      decide
    · have := (Nat.log2_lt hv).mpr v.isLt
      omega
  have hlong : ∀ v : BitVec 52, (1#1 ++ v).toNat.log2 ≤ 52 := by
    intro v
    by_cases hv : (1#1 ++ v).toNat = 0
    · rw [hv]
      decide
    · have := (Nat.log2_lt hv).mpr (1#1 ++ v).isLt
      omega
  have hmax : @unpackExponent .binary64 b ≠ -1#_ := by
    intro hmax
    rw [hmax] at h
    exact absurd h (by decide)
  unfold UnpackedFloat.unpack
  dsimp only
  rw [if_neg hmax]
  by_cases hsmall : @unpackExponent .binary64 b = 0#_
  · rw [if_pos hsmall]
    by_cases hzero : @unpackMantissa .binary64 b = 0#_
    · rw [dif_pos hzero]
      exact .zero _
    · rw [dif_neg hzero]
      refine .finite _ _ _ _ (hmant _) ?_
      rw [hsmall]
      decide
  · rw [if_neg hsmall]
    refine .finite _ _ _ _ (hlong _) ?_
    omega

/-- The exponent field of a packed number. -/
theorem unpackExponent_pack {top : Int} (htop : top ≤ 971) {u : UnpackedFloat}
    (h : Within top u) :
    ((unpackExponent (UnpackedFloat.pack .binary64 u)).toNat : Int) ≤ max (top + 1075) 0 := by
  cases h with
  | zero sign =>
    have hzero : (0 : BitVec Format.binary64.exponentBits).toNat = 0 := rfl
    unfold UnpackedFloat.pack
    dsimp only
    rw [packedZero, unpackExponent_packComponents, hzero]
    omega
  | finite sign m e hpos hm he =>
    have hbias : (e + Format.binary64.exponentBias +
        Format.binary64.mantissaBitsWithoutImplicit) = e + 1075 := by
      show e + 1023 + 52 = e + 1075
      omega
    have hbits : 2 ^ Format.binary64.exponentBits = 2048 := rfl
    unfold UnpackedFloat.pack
    dsimp only
    rw [hbias, hbits]
    rw [if_neg (by omega)]
    split
    · rw [unpackExponent_packComponents, BitVec.toNat_ofNat]
      have := Nat.mod_le (e + 1075).toNat (2 ^ Format.binary64.exponentBits)
      omega
    · have hzero : (0#_ : BitVec Format.binary64.exponentBits).toNat = 0 := rfl
      rw [unpackExponent_packComponents, hzero]
      omega

/-- A number whose exponent is not above the greatest is still so after packing. -/
theorem within_unpack_pack {top : Int} (hlow : -1074 ≤ top) (htop : top ≤ 971)
    {u : UnpackedFloat} (h : Within top u) : Within top (Float.Model.pack u).unpack := by
  have hexp := unpackExponent_pack htop h
  have hunpack := within_unpack (UnpackedFloat.pack .binary64 u) (by omega)
  exact hunpack.mono (by omega)

/-- The exponent of the number is not above a bound. -/
def Sized (top : Int) (x : Float) : Prop := Within top x.toModel.unpack

/-- The finite numbers are those whose exponent is not above the greatest. -/
theorem sized_iff_isFinite {x : Float} : Sized 971 x ↔ x.isFinite = true := by
  have hfinite : x.isFinite = x.toModel.unpack.isFinite := rfl
  rw [hfinite, Sized]
  constructor
  · exact Within.isFinite
  · intro h
    have hexp : (@unpackExponent .binary64 x.toModel.toBits.toBitVec).toNat ≤ 2046 := by
      by_cases hmax : @unpackExponent .binary64 x.toModel.toBits.toBitVec = -1#_
      · exfalso
        unfold Float.Model.unpack UnpackedFloat.unpack at h
        dsimp only at h
        rw [if_pos hmax] at h
        split at h <;> cases h
      · have hlt := (@unpackExponent .binary64 x.toModel.toBits.toBitVec).isLt
        have hne : (@unpackExponent .binary64 x.toModel.toBits.toBitVec).toNat ≠ 2047 :=
          fun heq => hmax (BitVec.eq_of_toNat_eq heq)
        have hbits : 2 ^ Format.binary64.exponentBits = 2048 := rfl
        omega
    exact (within_unpack _ hexp).mono (by omega)

/-- A number with a small exponent is finite. -/
theorem Sized.isFinite {top : Int} {x : Float} (h : Sized top x) (htop : top ≤ 971) :
    x.isFinite = true := sized_iff_isFinite.mp (h.mono htop)

/-- The negative of a number has its size. -/
theorem sized_neg {top : Int} (hlow : -1074 ≤ top) (htop : top ≤ 971) {x : Float}
    (h : Sized top x) : Sized top (-x) := by
  refine within_unpack_pack hlow htop ?_
  have hx : Within top x.toModel.unpack := h
  cases hu : x.toModel.unpack with
  | zero sign => exact .zero _
  | finite sign m e hpos =>
    rw [hu] at hx
    cases hx with
    | finite _ _ _ _ hm he => exact .finite _ _ _ _ hm he
  | infinity sign =>
    rw [hu] at hx
    cases hx
  | notANumber =>
    rw [hu] at hx
    cases hx

/-- A number with a sign is finite if the number is. -/
theorem isFinite_signed {negative : Bool} {x : Float} (h : x.isFinite = true) :
    (signed negative x).isFinite = true := by
  cases negative with
  | false => exact h
  | true => exact (sized_neg (by decide) (by decide) (sized_iff_isFinite.mpr h)).isFinite (by decide)

/-- The product of two numbers of known sizes. -/
theorem sized_mul {top top' : Int} (hlow : -1073 ≤ top + top' + 54) (hsum : top + top' ≤ 917)
    {x y : Float} (hx : Sized top x) (hy : Sized top' y) : Sized (top + top' + 54) (x * y) := by
  refine within_unpack_pack (by omega) (by omega) ?_
  have hx' : Within top x.toModel.unpack := hx
  have hy' : Within top' y.toModel.unpack := hy
  generalize x.toModel.unpack = u at hx'
  generalize y.toModel.unpack = v at hy'
  cases hx' with
  | zero sign => cases hy' <;> exact .zero _
  | finite sign m e hpos hm he =>
    cases hy' with
    | zero sign => exact .zero _
    | finite sign' m' e' hpos' hm' he' =>
      have hlog := log2_mul_le m m'
      have hround := within_roundWithAccuracy (sign * sign') (m * m') (e + e') .exact
      exact hround.mono (by omega)

/-- The bits of infinity are those of infinity. -/
theorem isInf_packedInfinity (sign : Sign) :
    (UnpackedFloat.unpack .binary64 (packedInfinity .binary64 sign)).isInf = true := by
  cases sign <;> decide +kernel

/-- A number whose exponent is above the greatest is packed as infinity. -/
theorem isInf_unpack_pack (sign : Sign) (m : Nat) (hpos : 0 < m) {e : Int} (he : 971 < e) :
    (Float.Model.pack (.finite sign m e hpos)).unpack.isInf = true := by
  have hbias : (e + Format.binary64.exponentBias +
      Format.binary64.mantissaBitsWithoutImplicit) = e + 1075 := by
    show e + 1023 + 52 = e + 1075
    omega
  have hbits : 2 ^ Format.binary64.exponentBits = 2048 := rfl
  have hpack : UnpackedFloat.pack .binary64 (.finite sign m e hpos) =
      packedInfinity .binary64 sign := by
    unfold UnpackedFloat.pack
    dsimp only
    rw [hbias, hbits]
    rw [if_pos (by omega)]
  show (UnpackedFloat.unpack .binary64 (UnpackedFloat.pack .binary64 _)).isInf = true
  rw [hpack]
  exact isInf_packedInfinity sign

/-- A rounded number is packed as a finite number or as infinity. -/
theorem isFinite_or_isInf_pack {top : Int} {u : UnpackedFloat} (h : Within top u) :
    (Float.Model.pack u).unpack.isFinite = true ∨ (Float.Model.pack u).unpack.isInf = true := by
  cases h with
  | zero sign =>
    have hzero : Within 971 (.zero sign) := .zero sign
    exact .inl (within_unpack_pack (by decide) (by decide) hzero).isFinite
  | finite sign m e hpos hm he =>
    by_cases hmax : e ≤ 971
    · have hfin : Within 971 (.finite sign m e hpos) := .finite sign m e hpos hm hmax
      exact .inl (within_unpack_pack (by decide) (by decide) hfin).isFinite
    · exact .inr (isInf_unpack_pack sign m hpos (Int.not_le.mp hmax))

/-- The product of finite numbers is finite unless it is infinite. -/
theorem isFinite_mul {x y : Float} (hx : x.isFinite = true) (hy : y.isFinite = true)
    (hinf : (x * y).isInf = false) : (x * y).isFinite = true := by
  have hx' : Within 971 x.toModel.unpack := sized_iff_isFinite.mpr hx
  have hy' : Within 971 y.toModel.unpack := sized_iff_isFinite.mpr hy
  have hmul : ∃ top, Within top (UnpackedFloat.mul .binary64 x.toModel.unpack y.toModel.unpack) := by
    generalize x.toModel.unpack = u at hx'
    generalize y.toModel.unpack = v at hy'
    cases hx' with
    | zero sign => cases hy' <;> exact ⟨0, .zero _⟩
    | finite sign m e hpos hm he =>
      cases hy' with
      | zero sign => exact ⟨0, .zero _⟩
      | finite sign' m' e' hpos' hm' he' => exact ⟨_, within_roundWithAccuracy _ _ _ _⟩
  obtain ⟨top, hmul⟩ := hmul
  rcases isFinite_or_isInf_pack hmul with h | h
  · exact h
  · have hinf' : (x * y).isInf = true := h
    rw [hinf] at hinf'
    cases hinf'

/-- The number is one whose logarithm is at least three. -/
def AtLeastEight (x : Float) : Bool :=
  match x.toModel.unpack with
  | .finite _ m e _ => 3 ≤ m.log2 + e
  | _ => false

/-- A finite number divided by a greater one than eight is finite. -/
theorem isFinite_div {x y : Float} (hx : x.isFinite = true) (hy : AtLeastEight y = true) :
    (x / y).isFinite = true := by
  have hx' : Within 971 x.toModel.unpack := sized_iff_isFinite.mpr hx
  suffices h : Within 971 (UnpackedFloat.div .binary64 x.toModel.unpack y.toModel.unpack) from
    (within_unpack_pack (by decide) (by decide) h).isFinite
  unfold AtLeastEight at hy
  generalize x.toModel.unpack = u at hx'
  split at hy
  · rename_i sign' m' e' hpos' hv
    rw [hv]
    cases hx' with
    | zero sign => exact .zero _
    | finite sign m e hpos hm he =>
      rw [decide_eq_true_eq] at hy
      unfold UnpackedFloat.div
      dsimp only
      simp only [divCore, totalExponent, targetExponent_eq]
      generalize hs : (e - e' - min (e - e')
        (max (↑m.log2 + 1 + e - (↑m'.log2 + 1 + e') - 53) (-1074))).toNat = s
      generalize ht : min (e - e') (max (↑m.log2 + 1 + e - (↑m'.log2 + 1 + e') - 53) (-1074)) = t
        at hs ⊢
      refine (within_roundWithAccuracy _ _ _ _).mono ?_
      have hquotient : (m <<< s / m').log2 + m'.log2 ≤ m.log2 + s ∨ (m <<< s / m').log2 = 0 := by
        by_cases hq : m <<< s / m' = 0
        · right
          rw [hq, Nat.log2_zero]
        · left
          exact Nat.le_trans (log2_div_le (by omega) hq) (log2_shiftLeft_le m s)
      omega
  · cases hy

/-- A number with all of its 53 bits keeps its exponent in packing. -/
theorem normal_unpack_pack {e : Int} {u : UnpackedFloat} (hu : Normal e u) (hlow : -1074 ≤ e)
    (hhigh : e ≤ 971) : Normal e (Float.Model.pack u).unpack := by
  cases hu with
  | finite sign m hpos hm =>
    have hbias : (e + Format.binary64.exponentBias +
        Format.binary64.mantissaBitsWithoutImplicit) = e + 1075 := by
      show e + 1023 + 52 = e + 1075
      omega
    have hbits : 2 ^ Format.binary64.exponentBits = 2048 := rfl
    have hmant : m.log2 + 1 = Format.binary64.mantissaBits := by
      rw [hm]
      rfl
    have hpack : UnpackedFloat.pack .binary64 (.finite sign m e hpos) =
        packComponents .binary64 sign (BitVec.ofNat _ (e + 1075).toNat) (BitVec.ofNat _ m) := by
      unfold UnpackedFloat.pack
      dsimp only
      rw [hbias, hbits]
      rw [if_neg (by omega), if_pos hmant]
    have hexp : (BitVec.ofNat Format.binary64.exponentBits (e + 1075).toNat).toNat =
        (e + 1075).toNat := by
      rw [BitVec.toNat_ofNat, hbits]
      omega
    have hlog : ∀ v : BitVec 52, (1#1 ++ v).toNat.log2 = 52 := by
      intro v
      have hle : 2 ^ 52 ≤ (1#1 ++ v).toNat := by
        rw [BitVec.toNat_append]
        exact Nat.left_le_or
      rw [Nat.log2_eq_iff (by omega)]
      exact ⟨hle, (1#1 ++ v).isLt⟩
    have hzero : BitVec.ofNat Format.binary64.exponentBits (e + 1075).toNat ≠ 0#_ := by
      intro h
      have htoNat : (e + 1075).toNat = 0 := hexp.symm.trans (congrArg BitVec.toNat h)
      omega
    have hmax : BitVec.ofNat Format.binary64.exponentBits (e + 1075).toNat ≠ -1#_ := by
      intro h
      have htoNat : (e + 1075).toNat = 2047 := hexp.symm.trans (congrArg BitVec.toNat h)
      omega
    have hfield : ((e + 1075).toNat : Int) - (Format.binary64.exponentBias +
        Format.binary64.mantissaBitsWithoutImplicit) = e := by
      show ((e + 1075).toNat : Int) - (1023 + 52) = e
      omega
    have hword : unpackExponent (packComponents .binary64 sign
        (BitVec.ofNat _ (e + 1075).toNat) (BitVec.ofNat _ m)) =
          BitVec.ofNat _ (e + 1075).toNat := unpackExponent_packComponents
    show Normal e (UnpackedFloat.unpack .binary64
      (UnpackedFloat.pack .binary64 (.finite sign m e hpos)))
    rw [hpack]
    generalize packComponents .binary64 sign (BitVec.ofNat _ (e + 1075).toNat)
      (BitVec.ofNat _ m) = word at hword
    rw [← hword] at hzero hmax hexp
    unfold UnpackedFloat.unpack
    dsimp only
    rw [if_neg hmax, if_neg hzero, hexp, hfield]
    exact .finite _ _ _ (hlog _)

/-- A greater power of ten has no smaller logarithm. -/
theorem log2_tenPower_mono {p q : Nat} (h : p ≤ q) :
    (Nat.pow 10 p).log2 ≤ (Nat.pow 10 q).log2 :=
  log2_mono (Nat.pow_le_pow_right (by decide) h)

/-- The logarithm of a power of ten of at most 307 places. -/
theorem log2_tenPower {p : Nat} (hlow : 1 ≤ p) (hhigh : p ≤ 307) :
    3 ≤ (Nat.pow 10 p).log2 ∧ (Nat.pow 10 p).log2 ≤ 1020 := by
  have hone : (Nat.pow 10 1).log2 = 3 := by decide
  have hfirst : (Nat.pow 10 200).log2 = 664 := by decide +kernel
  have hsecond : (Nat.pow 10 107).log2 = 355 := by decide +kernel
  refine ⟨hone ▸ log2_tenPower_mono hlow, ?_⟩
  by_cases hp : p ≤ 200
  · exact Nat.le_trans (hfirst ▸ log2_tenPower_mono hp) (by decide)
  · have hsplit : Nat.pow 10 (200 + (p - 200)) = Nat.pow 10 200 * Nat.pow 10 (p - 200) :=
      Nat.pow_add 10 200 (p - 200)
    have hp' : 200 + (p - 200) = p := by omega
    have hrest := log2_tenPower_mono (p := p - 200) (q := 107) (by omega)
    have hmul := log2_mul_le (Nat.pow 10 200) (Nat.pow 10 (p - 200))
    rw [← hsplit, hp', hfirst] at hmul
    rw [hsecond] at hrest
    omega

/-- A power of ten of many places is a number of 53 bits. -/
theorem normal_tenPower {p : Nat} (hlow : 23 ≤ p) (hhigh : p ≤ 307) :
    ∃ e, Normal e (Float.ofScientific 1 false p).toModel.unpack ∧ -49 ≤ e := by
  have hmodel : (Float.ofScientific 1 false p).toModel =
      Float.Model.pack (roundWithAccuracy .binary64 .positive
        (Nat.pow 2 53 * Nat.pow 10 p) (-53) .exact) := by
    have hslow : ¬ (1 < 2 ^ 53 ∧ p ≤ 22) := by omega
    have hmin : ¬ ((p : Int) > 2 ^ Format.binary64.exponentBits) := by
      show ¬ ((p : Int) > 2048)
      omega
    have hmax : ¬ ((p : Int) < -((2 ^ Format.binary64.exponentBits : Int) + (1 : Nat).log2)) := by
      show ¬ ((p : Int) < -(2048 + 0))
      omega
    rw [Float.ofScientific, dif_neg hslow]
    show Float.Model.pack (UnpackedFloat.ofScientific .binary64 1 (p : Int)) = _
    rw [UnpackedFloat.ofScientific, dif_neg (by decide), if_neg hmin, if_neg hmax,
      if_pos (by omega)]
    rfl
  have hten := log2_tenPower (p := p) (by omega) hhigh
  have htwo : (Nat.pow 2 53).log2 = 53 := by decide
  have hten0 : Nat.pow 10 p ≠ 0 := by
    intro h
    rw [h, Nat.log2_zero] at hten
    omega
  have hmin := le_log2_mul (m := Nat.pow 2 53) (by decide) hten0
  have hmax := log2_mul_le (Nat.pow 2 53) (Nat.pow 10 p)
  obtain ⟨e, hnormal, hle, hge⟩ := roundWithAccuracy_normal .positive
    (m := Nat.pow 2 53 * Nat.pow 10 p) (e := -53) .exact (by omega) (by omega)
  rw [hmodel]
  exact ⟨e, normal_unpack_pack hnormal (by omega) (by omega), by omega⟩

/-- A power of ten that a number is divided by. -/
theorem atLeastEight_tenPower {p : Nat} (hlow : 1 ≤ p) (hhigh : p ≤ 308) :
    AtLeastEight (Float.ofScientific 1 false p) = true := by
  have hfew : ∀ k : Fin 22, AtLeastEight (Float.ofScientific 1 false (k.val + 1)) = true := by
    decide +kernel
  have htop : AtLeastEight (Float.ofScientific 1 false 308) = true := by decide +kernel
  by_cases hp : p ≤ 22
  · have h := hfew ⟨p - 1, by omega⟩
    rwa [show p - 1 + 1 = p by omega] at h
  · by_cases hp' : p = 308
    · rw [hp']
      exact htop
    · obtain ⟨e, hnormal, he⟩ := normal_tenPower (p := p) (by omega) (by omega)
      unfold AtLeastEight
      generalize (Float.ofScientific 1 false p).toModel.unpack = u at hnormal
      cases hnormal with
      | finite sign m hpos hm =>
        simp only [decide_eq_true_eq]
        omega

/-- A number that is at least eight is finite. -/
theorem isFinite_of_atLeastEight {x : Float} (h : AtLeastEight x = true) : x.isFinite = true := by
  show x.toModel.unpack.isFinite = true
  unfold AtLeastEight at h
  split at h
  · rename_i hu
    rw [hu]
    rfl
  · cases h

/-- Every power of ten up to the greatest is finite. -/
theorem isFinite_tenPower {p : Nat} (hhigh : p ≤ 308) :
    (Float.ofScientific 1 false p).isFinite = true := by
  by_cases hp : p = 0
  · rw [hp]
    decide +kernel
  · exact isFinite_of_atLeastEight (atLeastEight_tenPower (by omega) hhigh)

/-- An integer of 64 bits is a number with a small exponent. -/
theorem sized_toFloat (n : UInt64) : Sized 12 n.toFloat := by
  refine within_unpack_pack (by decide) (by decide) ?_
  show Within 12 (UnpackedFloat.normalize .binary64 (n.toNat : Int) 0 .positive)
  unfold UnpackedFloat.normalize
  split
  · rename_i h
    have hneg := Int.compare_eq_lt.mp h
    omega
  · exact .zero _
  · have hlog : n.toNat.log2 ≤ 63 := by
      by_cases hzero : n.toNat = 0
      · rw [hzero, Nat.log2_zero]
        decide
      · have := (Nat.log2_lt hzero).mpr n.toNat_lt
        omega
    rw [Int.toNat_natCast, UnpackedFloat.round]
    simp only [decreaseExponent, totalExponent, targetExponent_eq]
    generalize hs : (0 - max ((n.toNat.log2 : Int) + 1 + 0 - 53) (-1074)).toNat = s
    refine (within_roundWithAccuracy _ _ _ _).mono ?_
    have hshift := log2_shiftLeft_le n.toNat s
    omega

/-- The number one is small. -/
theorem sized_one : Sized 0 (Float.ofBits 0x3FF0000000000000) := by
  have hexp : (@unpackExponent .binary64
      (Float.ofBits 0x3FF0000000000000).toModel.toBits.toBitVec).toNat = 1023 := by
    decide +kernel
  exact (within_unpack _ (by omega)).mono (by omega)

/-- A natural number of 64 bits is a number with a small exponent. -/
theorem sized_ofNat {n : Nat} (h : n ≤ significandBound) : Sized 100 (Float.ofNat n) := by
  show Sized 100 (Float.ofScientific n false 0)
  unfold Float.ofScientific
  split
  · have hmul := sized_mul (by decide) (by decide) (sized_toFloat n.toUInt64) sized_one
    exact hmul.mono (by decide)
  · refine within_unpack_pack (by decide) (by decide) ?_
    show Within 100 (UnpackedFloat.ofScientific .binary64 n 0)
    unfold UnpackedFloat.ofScientific
    by_cases hne : n = 0
    · rw [dif_pos hne]
      exact .zero _
    · have hmin : ¬ ((0 : Int) > 2 ^ Format.binary64.exponentBits) := by decide
      have hmax : ¬ ((0 : Int) < -((2 ^ Format.binary64.exponentBits : Int) + n.log2)) := by
        show ¬ ((0 : Int) < -(2048 + (n.log2 : Int)))
        omega
      have hlog : n.log2 ≤ 64 := by
        have hbound : n < 2 ^ 65 := Nat.lt_of_le_of_lt h (by decide)
        have := (Nat.log2_lt hne).mpr hbound
        omega
      have hshift := log2_shiftLeft_le n 53
      have hmul := log2_mul_le (n <<< 53) 1
      have hone : Nat.log2 1 = 0 := by decide
      have hround := within_roundWithAccuracy (.positive * .positive) (n <<< 53 * 1) (-53 + 0)
        .exact
      rw [dif_neg hne, if_neg hmin, if_neg hmax, if_pos (by decide)]
      refine Within.mono hround ?_
      generalize (n <<< 53 * 1).log2 = k at hmul ⊢
      generalize (n <<< 53).log2 = j at hmul hshift
      omega

/-- An integer that a literal can denote is finite as a floating-point number. -/
theorem isFinite_ofInt {n : Int} (h : n.natAbs ≤ significandBound) :
    (Float.ofInt n).isFinite = true := by
  cases n with
  | ofNat n => exact (sized_ofNat h).isFinite (by decide)
  | negSucc n => exact (sized_neg (by decide) (by decide) (sized_ofNat h)).isFinite (by decide)

/-- Dividing by powers of ten keeps a number finite. -/
theorem isFinite_shrink {x y : Float} {places : Nat} (hx : x.isFinite = true) (hp : 1 ≤ places)
    (h : scale?.shrink x places = some y) : y.isFinite = true := by
  induction places using Nat.strongRecOn generalizing x with
  | ind places ih =>
    rw [scale?.shrink] at h
    split at h
    · cases h
      exact isFinite_div hx (atLeastEight_tenPower hp ‹_›)
    · split at h
      · cases h
        exact hx
      · have hstep := isFinite_div hx (atLeastEight_tenPower (p := 308) (by decide) (by decide))
        exact ih (places - 308) (by omega) hstep (by omega) h

/-- A scaled number is finite. -/
theorem isFinite_scale? {x y : Float} {e : Int} (hx : x.isFinite = true)
    (h : scale? x e = some y) : y.isFinite = true := by
  unfold scale? at h
  split at h
  · split at h
    · cases h
      exact hx
    · cases h
  · split at h
    · dsimp only at h
      split at h
      · cases h
      · rename_i hinf
        cases h
        exact isFinite_mul hx (isFinite_tenPower (by omega)) (Bool.not_eq_true _ ▸ hinf)
    · exact isFinite_shrink hx (by omega) h

/-- The floating-point number of a literal is finite. -/
theorem Literal.isFinite_real? {l : Literal} {x : Float} (h : l.real? = some x) :
    x.isFinite = true := by
  unfold Literal.real? at h
  dsimp only at h
  split at h
  · split at h
    · cases h
    · cases h
      exact isFinite_signed (by decide +kernel)
  · obtain ⟨y, hy, rfl⟩ := Option.map_eq_some_iff.mp h
    exact isFinite_signed (isFinite_scale? ((sized_toFloat _).isFinite (by decide)) hy)

/-- The floating-point number as which a number is read. -/
def Number.toDouble : Number → Double
  | .integer n => .ofInt n
  | .real x => x

/-- The number of a literal is finite as a floating-point number. -/
theorem Literal.isFinite_number? {l : Literal} {n : Number} (h : l.number? = some n) :
    n.toDouble.isFinite = true := by
  have hreal : ∀ x, (l.real?.map fun x => Number.real (.ofFloat x)) = some x →
      x.toDouble.isFinite = true := by
    intro x hx
    obtain ⟨y, hy, rfl⟩ := Option.map_eq_some_iff.mp hx
    exact (Double.isFinite_ofFloat y).trans (l.isFinite_real? hy)
  have hinteger : ∀ n : Int, n.natAbs ≤ significandBound →
      (Number.integer n).toDouble.isFinite = true := fun n hn =>
    (Double.isFinite_ofFloat _).trans (isFinite_ofInt hn)
  unfold Literal.number? at h
  split at h
  · dsimp only at h
    split at h
    · rename_i hpos
      cases h
      simp only [Bool.and_eq_true, decide_eq_true_eq] at hpos
      refine hinteger _ ?_
      rw [Int.natAbs_natCast]
      omega
    · split at h
      · rename_i hneg
        cases h
        simp only [Bool.and_eq_true, decide_eq_true_eq] at hneg
        refine hinteger _ ?_
        rw [Int.natAbs_neg, Int.natAbs_natCast]
        omega
      · exact hreal n h
  · exact hreal n h

end RatingServer.Decimal
