import RatingServer.Decimal.Literal

/-!
# The word of a floating-point number

A floating-point number is the number of its word: the parts of the word, taken
apart and put together again, give the word. This is so of every word that stands for a
number; the words of what is not a number are put together as one of them.
-/

namespace RatingServer.Decimal

open Float.Model Float.Model.UnpackedFloat

/-- The sign of a bit has that bit. -/
theorem toBitVec_ofBitVec (b : BitVec 1) : (Sign.ofBitVec b).toBitVec = b := by
  have hb : b = 0#1 ∨ b = 1#1 := by
    have hlt := b.isLt
    rw [← BitVec.toNat_inj, ← BitVec.toNat_inj]
    simp only [BitVec.toNat_ofNat]
    omega
  rcases hb with rfl | rfl <;> rfl

/-- A word is made of its three parts. -/
theorem packComponents_parts (b : BitVec Format.binary64.numBits) :
    packComponents .binary64 (Sign.ofBitVec (unpackSign b)) (unpackExponent b)
      (unpackMantissa b) = b := by
  rw [packComponents, toBitVec_ofBitVec]
  apply BitVec.eq_of_getLsbD_eq
  intro i hi
  rw [BitVec.getLsbD_append, BitVec.getLsbD_append]
  unfold unpackSign unpackExponent unpackMantissa
  simp only [BitVec.getLsbD_cast, BitVec.getLsbD_extractLsb]
  grind

/-- The exponent of a number below one in its class: the smallest one. -/
theorem pack_subnormal (s : Sign) (m : BitVec Format.binary64.mantissaBitsWithoutImplicit)
    (hpos : 0 < m.toNat) {e : Int} (he : e + 1075 = 1) :
    pack .binary64 (.finite s m.toNat e hpos) = packComponents .binary64 s 0#_ m := by
  have hlt : m.toNat < Nat.pow 2 52 := m.isLt
  have hlog : m.toNat.log2 < 52 := (Nat.log2_lt (Nat.pos_iff_ne_zero.mp hpos)).mpr hlt
  have hbias : (e + (Format.binary64.exponentBias : Nat) +
      (Format.binary64.mantissaBitsWithoutImplicit : Nat)).toNat = 1 := by
    have hvalue : Format.binary64.exponentBias = 1023 := rfl
    rw [hvalue]
    show (e + 1023 + 52).toNat = 1
    omega
  have hbits : Format.binary64.mantissaBits = 53 := rfl
  unfold UnpackedFloat.pack
  dsimp only
  rw [hbias]
  rw [if_neg (by decide), if_neg (by omega), BitVec.ofNat_toNat, BitVec.setWidth_eq]

/-- A number with all its bits keeps its exponent and the bits after the first. -/
theorem pack_normal (s : Sign) (m : BitVec Format.binary64.mantissaBitsWithoutImplicit)
    (x : BitVec Format.binary64.exponentBits) (hx : x.toNat < 2047) (hpos : 0 < (1#1 ++ m).toNat)
    {e : Int} (he : e + 1075 = x.toNat) :
    pack .binary64 (.finite s (1#1 ++ m).toNat e hpos) = packComponents .binary64 s x m := by
  have hlt : m.toNat < Nat.pow 2 52 := m.isLt
  have hvalue : (1#1 ++ m).toNat = Nat.pow 2 52 + m.toNat := by
    rw [BitVec.toNat_append, ← Nat.shiftLeft_add_eq_or_of_lt m.isLt]
    rfl
  have hlog : (1#1 ++ m).toNat.log2 = 52 := by
    have hlower : 52 ≤ (1#1 ++ m).toNat.log2 := by
      rw [Nat.le_log2 (Nat.pos_iff_ne_zero.mp hpos)]
      show Nat.pow 2 52 ≤ _
      omega
    have hupper : (1#1 ++ m).toNat.log2 < 53 := by
      rw [Nat.log2_lt (Nat.pos_iff_ne_zero.mp hpos)]
      show _ < Nat.pow 2 53
      have hdouble : Nat.pow 2 53 = Nat.pow 2 52 + Nat.pow 2 52 := rfl
      omega
    omega
  have hbias : (e + (Format.binary64.exponentBias : Nat) +
      (Format.binary64.mantissaBitsWithoutImplicit : Nat)).toNat = x.toNat := by
    have hbiasValue : Format.binary64.exponentBias = 1023 := rfl
    rw [hbiasValue]
    show (e + 1023 + 52).toNat = x.toNat
    omega
  have hmantissa : BitVec.ofNat Format.binary64.mantissaBitsWithoutImplicit (1#1 ++ m).toNat = m := by
    apply BitVec.eq_of_toNat_eq
    rw [BitVec.toNat_ofNat, hvalue]
    show (Nat.pow 2 52 + m.toNat) % Nat.pow 2 52 = m.toNat
    rw [Nat.add_mod_left, Nat.mod_eq_of_lt hlt]
  have hbits : Format.binary64.mantissaBits = 53 := rfl
  have hroom : ¬ 2 ^ Format.binary64.exponentBits ≤ x.toNat + 1 := by
    show ¬ Nat.pow 2 11 ≤ x.toNat + 1
    have hpow : Nat.pow 2 11 = 2048 := rfl
    omega
  unfold UnpackedFloat.pack
  dsimp only
  rw [hbias]
  rw [if_neg hroom, if_pos (by omega), BitVec.ofNat_toNat, BitVec.setWidth_eq, hmantissa]

/-- A valid word, taken apart, is put together again. -/
theorem pack_unpack {b : BitVec Format.binary64.numBits} (h : Format.binary64.Valid b) :
    pack .binary64 (unpack .binary64 b) = b := by
  have hparts := packComponents_parts b
  unfold UnpackedFloat.unpack
  dsimp only
  by_cases hexponent : unpackExponent b = -1#_
  · rw [if_pos hexponent]
    rw [hexponent] at hparts
    by_cases hmantissa : unpackMantissa b = 0#_
    · rw [if_pos hmantissa]
      rw [hmantissa] at hparts
      exact hparts
    · rw [if_neg hmantissa]
      exact (h.eq_packedNaN hexponent hmantissa).symm
  · rw [if_neg hexponent]
    by_cases hsmall : unpackExponent b = 0#_
    · rw [if_pos hsmall]
      rw [hsmall] at hparts
      by_cases hmantissa : unpackMantissa b = 0#_
      · rw [dif_pos hmantissa]
        rw [hmantissa] at hparts
        exact hparts
      · rw [dif_neg hmantissa, pack_subnormal, hparts]
        rw [hsmall]
        rfl
    · have hx : (unpackExponent b).toNat < 2047 := by
        have hlt : (unpackExponent b).toNat < 2048 := (unpackExponent b).isLt
        have hne : (unpackExponent b).toNat ≠ 2047 := fun heq =>
          hexponent (BitVec.eq_of_toNat_eq (by rw [heq]; rfl))
        omega
      have hbias : Format.binary64.exponentBias = 1023 := rfl
      rw [if_neg hsmall, pack_normal _ _ _ hx, hparts]
      rw [hbias]
      show ((unpackExponent b).toNat : Int) - (1023 + 52) + 1075 = _
      omega

/-- A number is the number of its word. -/
theorem ofBits_toBits (x : Float) : Float.ofBits x.toBits = x := by
  obtain ⟨⟨word, hvalid⟩⟩ := x
  have hpack : UnpackedFloat.pack .binary64 (UnpackedFloat.unpack .binary64 word.toBitVec) =
      word.toBitVec := pack_unpack hvalid
  have hbits : UInt64.ofBitVec (UnpackedFloat.pack .binary64
      (UnpackedFloat.unpack .binary64 word.toBitVec)) = word := by
    rw [hpack]
  show Float.ofModel ⟨UInt64.ofBitVec _, _⟩ = _
  congr 2

/-- A word is valid unless it stands for what is not a number. -/
theorem valid_of_unpack_ne {b : BitVec Format.binary64.numBits}
    (h : unpack .binary64 b ≠ .notANumber) : Format.binary64.Valid b where
  eq_packedNaN hexponent hmantissa := by
    refine absurd ?_ h
    unfold UnpackedFloat.unpack
    dsimp only
    rw [if_pos hexponent, if_neg hmantissa]

end RatingServer.Decimal

namespace RatingServer.Double

open Decimal Float.Model Float.Model.UnpackedFloat

/-- The number of the word of a number is that number. -/
@[simp]
theorem toFloat_ofFloat (x : Float) : (ofFloat x).toFloat = x := ofBits_toBits x

/-- The word of a finite number is finite. -/
@[simp]
theorem isFinite_ofFloat (x : Float) : (ofFloat x).isFinite = x.isFinite := by
  rw [isFinite, toFloat_ofFloat]

/-- The word as a word of its format. -/
def word (x : Double) : BitVec Format.binary64.numBits := x.bits.toBitVec

/-- What the word stands for. -/
def unpacked (x : Double) : UnpackedFloat := unpack .binary64 x.word

/-- What a word stands for is what its number stands for. -/
theorem unpack_toFloat (x : Double) : x.toFloat.toModel.unpack = x.unpacked := by
  show unpack .binary64 (pack .binary64 x.unpacked) = x.unpacked
  by_cases hnan : x.unpacked = .notANumber
  · rw [hnan]
    rfl
  · rw [unpacked, pack_unpack (valid_of_unpack_ne hnan)]

/-- What is not a number stands for that. -/
theorem isNaN_iff {x : Double} : x.isNaN = true ↔ x.unpacked = .notANumber := by
  have hmodel : x.isNaN = x.toFloat.toModel.unpack.isNaN := rfl
  rw [hmodel, unpack_toFloat]
  cases x.unpacked with
  | notANumber => exact iff_of_true rfl rfl
  | infinity => exact iff_of_false nofun nofun
  | zero => exact iff_of_false nofun nofun
  | finite => exact iff_of_false nofun nofun

/-- What is a number stands for one. -/
theorem isNaN_eq_false_iff {x : Double} : x.isNaN = false ↔ x.unpacked ≠ .notANumber := by
  rw [← Bool.not_eq_true, isNaN_iff]

/-- A number has one word. -/
theorem eq_of_unpacked_eq {x y : Double} (hx : x.isNaN = false)
    (h : x.unpacked = y.unpacked) : x = y := by
  have hpack : ∀ {z : Double}, z.unpacked ≠ .notANumber → pack .binary64 z.unpacked = z.word :=
    fun hz => pack_unpack (valid_of_unpack_ne hz)
  have hnumber := isNaN_eq_false_iff.mp hx
  have hword : x.bits.toBitVec = y.bits.toBitVec :=
    calc x.word
      _ = pack .binary64 x.unpacked := (hpack hnumber).symm
      _ = pack .binary64 y.unpacked := by rw [h]
      _ = y.word := hpack (h ▸ hnumber)
  exact congrArg mk (UInt64.toBitVec_inj.mp hword)

end RatingServer.Double
