import RatingServer.Decimal.Shortest

/-!
# Shortest decimals of large numbers

The shortest decimal of a number is zero times a power of ten only if that power is at
most one. The grids on which it is searched end twenty places below the number's own
size, so that on the last of them a large number is still more than one step.
-/

namespace RatingServer.Decimal

/-- A point that is found on a grid is not zero. -/
theorem Interval.nearest?_pos {i : Interval} {d : Nat} (h : i.nearest? = some d) : 0 < d := by
  unfold nearest? at h
  dsimp only at h
  generalize i.middle / i.step = below at h
  split at h
  · cases h
  · rename_i hbelow _
    cases h
    simp only [Bool.and_eq_true, bne_iff_ne] at hbelow
    omega
  · cases h
    omega
  · rename_i hbelow _
    simp only [Bool.and_eq_true, bne_iff_ne] at hbelow
    cases h
    split <;> omega

/-- The search ends with a point that is not zero, or on its last grid. -/
theorem Binary.search_pos (b : Binary) (n : Nat) (k : Int) :
    0 < (b.search n k).digits ∨
      b.search n k = ⟨(b.interval (k - n)).middle / (b.interval (k - n)).step, k - n⟩ := by
  induction n generalizing k with
  | zero =>
    right
    rw [search]
    simp
  | succ n ih =>
    rw [search]
    cases hfound : (b.interval k).nearest? with
    | some d => exact .inl (Interval.nearest?_pos hfound)
    | none =>
      have hlast : k - 1 - n = k - ((n + 1 : Nat) : Int) := by omega
      have hrest := ih (k - 1)
      rw [hlast] at hrest
      exact hrest

/-- A power of ten is below the power of two of ten thirds of its places. -/
theorem tenPower_le (k : Nat) : Nat.pow 10 k ≤ Nat.pow 2 (10 * (k / 3 + 1)) := by
  calc Nat.pow 10 k ≤ Nat.pow 10 (3 * (k / 3 + 1)) := Nat.pow_le_pow_right (by decide) (by omega)
    _ = Nat.pow (Nat.pow 10 3) (k / 3 + 1) := Nat.pow_mul 10 3 _
    _ ≤ Nat.pow (Nat.pow 2 10) (k / 3 + 1) := Nat.pow_le_pow_left (by decide) _
    _ = Nat.pow 2 (10 * (k / 3 + 1)) := (Nat.pow_mul 2 10 _).symm

/-- A large number is at least one step of the last grid. -/
theorem Binary.step_le_middle {b : Binary} {k : Nat} (hzero : b.significand ≠ 0)
    (hexponent : 2 ≤ b.exponent) (hpos : 1 ≤ k)
    (hk : (10 * (k / 3 + 1) : Nat) ≤ b.exponent + b.significand.log2) :
    (b.interval k).step ≤ (b.interval k).middle := by
  obtain ⟨e, he⟩ : ∃ e : Nat, b.exponent = e + 2 := ⟨(b.exponent - 2).toNat, by omega⟩
  have hlow : Nat.pow 2 b.significand.log2 ≤ b.significand := Nat.log2_self_le hzero
  have hstep : (b.interval k).step = Nat.pow 10 k := by
    simp only [interval, he]
    have h : (-((e : Int) + 2 - 2)).toNat = 0 := by omega
    rw [h, Int.toNat_natCast]
    exact Nat.one_mul _
  have hmiddle : (b.interval k).middle = 4 * b.significand * Nat.pow 2 e := by
    simp only [interval, he]
    have h : ((e : Int) + 2 - 2).toNat = e := by omega
    have h' : (-(k : Int)).toNat = 0 := by omega
    rw [h, h']
    simp
  rw [hstep, hmiddle]
  calc Nat.pow 10 k ≤ Nat.pow 2 (10 * (k / 3 + 1)) := tenPower_le k
    _ ≤ Nat.pow 2 (2 + b.significand.log2 + e) := Nat.pow_le_pow_right (by decide) (by omega)
    _ = 4 * Nat.pow 2 b.significand.log2 * Nat.pow 2 e := by
      show 2 ^ _ = 4 * 2 ^ _ * 2 ^ _
      rw [Nat.pow_add, Nat.pow_add]
    _ ≤ 4 * b.significand * Nat.pow 2 e :=
      Nat.mul_le_mul_right _ (Nat.mul_le_mul_left 4 hlow)

/-- The shortest decimal of a double is not zero, unless its power of ten is at most
one. -/
theorem Binary.shortest_pos {b : Binary} (hzero : b.significand ≠ 0)
    (hsignificand : b.significand.log2 ≤ 52) (hexponent : b.exponent ≤ 1000) :
    0 < b.shortest.digits ∨ b.shortest.exponent ≤ 0 := by
  have hsearch := b.search_pos 20 ((b.exponent + b.significand.log2 + 1) * 30103 / 100000 + 1)
  rcases hsearch with hfound | hlast
  · exact .inl hfound
  · unfold shortest
    dsimp only
    rw [hlast]
    dsimp only
    by_cases hsmall : (b.exponent + b.significand.log2 + 1) * 30103 / 100000 + 1 - (20 : Nat) ≤ 0
    · exact .inr hsmall
    · obtain ⟨k, hk⟩ : ∃ k : Nat,
          (b.exponent + b.significand.log2 + 1) * 30103 / 100000 + 1 - (20 : Nat) = k :=
        ⟨_, (Int.toNat_of_nonneg (by omega)).symm⟩
      left
      rw [hk]
      refine Nat.div_pos (step_le_middle hzero (by omega) (by omega) (by omega)) ?_
      unfold interval
      exact Nat.mul_pos (Nat.pow_pos (by decide)) (Nat.pow_pos (by decide))

/-- The magnitude of a double that is not zero is not zero, and within the bounds of
doubles. -/
theorem Binary.ofBits_bounds {bits : UInt64} (h : bits.toNat % signBit ≠ 0) :
    (ofBits bits).significand ≠ 0 ∧ (ofBits bits).significand.log2 ≤ 52 ∧
      (ofBits bits).exponent ≤ 1000 := by
  have hlog : ∀ n, n < 9007199254740992 → n.log2 ≤ 52 := fun n hn => by
    by_cases hzero : n = 0
    · subst hzero
      decide
    · exact Nat.le_of_lt_succ ((Nat.log2_lt hzero).mpr hn)
  unfold ofBits
  dsimp only
  by_cases hsmall : bits.toNat % signBit / leadingBit = 0
  · rw [if_pos hsmall]
    simp only [signBit, leadingBit] at h hsmall ⊢
    exact ⟨by omega, hlog _ (by omega), by decide⟩
  · rw [if_neg hsmall]
    simp only [signBit, leadingBit] at h hsmall ⊢
    exact ⟨by omega, hlog _ (by omega), by omega⟩

end RatingServer.Decimal
