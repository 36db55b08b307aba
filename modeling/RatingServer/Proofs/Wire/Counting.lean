import RatingServer.Wire.Bytes

/-!
# Numbers that are read from their bytes

The bytes of a number, in either order, denote the number, and the bytes of a count
are read as the count whatever follows them.
-/

namespace RatingServer.Wire

/-- Little-endian bytes are as many as asked for. -/
@[simp] theorem length_littleEndian (count n : Nat) : (littleEndian count n).length = count := by
  induction count generalizing n with
  | zero => rfl
  | succ count ih => rw [littleEndian, List.length_cons, ih]

/-- Little-endian bytes denote the number that fits into them. -/
theorem ofLittleEndian_littleEndian {count n : Nat} (h : n < Nat.pow 256 count) :
    ofLittleEndian (littleEndian count n) = n := by
  induction count generalizing n with
  | zero =>
    have hn : n < 1 := h
    rw [littleEndian, ofLittleEndian]
    omega
  | succ count ih =>
    have hn : n < Nat.pow 256 count * 256 := h
    have hrest : n / 256 < Nat.pow 256 count := by omega
    rw [littleEndian, ofLittleEndian, ih hrest, UInt8.toNat_ofNat']
    omega

/-- Big-endian bytes are as many as asked for. -/
@[simp] theorem length_bigEndian (count n : Nat) : (bigEndian count n).length = count := by
  rw [bigEndian, List.length_reverse, length_littleEndian]

/-- Big-endian bytes denote the number that fits into them. -/
theorem ofBigEndian_bigEndian {count n : Nat} (h : n < Nat.pow 256 count) :
    ofBigEndian (bigEndian count n) = n := by
  rw [ofBigEndian, bigEndian, List.reverse_reverse, ofLittleEndian_littleEndian h]

/-- A number in big-endian order is at least its highest byte in its place. -/
theorem le_ofBigEndian (b : UInt8) (bs : Bytes) :
    b.toNat * Nat.pow 256 bs.length ≤ ofBigEndian (b :: bs) := by
  have hplace : ∀ low : Bytes, b.toNat * Nat.pow 256 low.length ≤ ofLittleEndian (low ++ [b]) := by
    intro low
    induction low with
    | nil => simp [ofLittleEndian]
    | cons c low ih =>
      rw [List.cons_append, ofLittleEndian, List.length_cons]
      have hpow : b.toNat * Nat.pow 256 (low.length + 1) =
          256 * (b.toNat * Nat.pow 256 low.length) := by
        show b.toNat * (Nat.pow 256 low.length * 256) = _
        rw [← Nat.mul_assoc, Nat.mul_comm 256]
      omega
  rw [ofBigEndian, List.reverse_cons, ← List.length_reverse]
  exact hplace bs.reverse

/-- Bytes are taken from before other bytes. -/
theorem take?_append (bs rest : Bytes) : take? bs.length (bs ++ rest) = some (bs, rest) := by
  rw [take?, List.take_left, List.drop_left, if_pos rfl]

/-- As many bytes as a number says are taken from before other bytes. -/
theorem take?_append_of_eq {count : Nat} {bs : Bytes} (h : bs.length = count) (rest : Bytes) :
    take? count (bs ++ rest) = some (bs, rest) := by
  rw [← h, take?_append]

/-- If every item has a byte there are at least as many bytes as items. -/
theorem length_le_flatMap {α β : Type} {f : α → List β} (h : ∀ a, 0 < (f a).length)
    (l : List α) : l.length ≤ (l.flatMap f).length := by
  induction l with
  | nil => exact Nat.le_refl 0
  | cons a l ih =>
    have hpos := h a
    rw [List.flatMap_cons, List.length_append, List.length_cons]
    omega

/-- A count has at most nine bytes. -/
theorem length_putCount_le (n : Nat) : (putCount n).length ≤ 9 := by
  unfold putCount
  split
  · exact Nat.le_add_left 1 8
  · split
    · exact Nat.le_add_left 3 6
    · split
      · exact Nat.le_add_left 5 4
      · exact Nat.le_refl 9

/-- A count has at least one byte. -/
theorem length_putCount_pos (n : Nat) : 0 < (putCount n).length := by
  unfold putCount
  split
  · exact Nat.succ_pos _
  · split
    · exact Nat.succ_pos _
    · split <;> exact Nat.succ_pos _

/-- A long count is read as the number in the bytes after the mark. -/
theorem getCount_mark {mark : UInt8} {width widest n : Nat} (hmark : ¬ mark < 251)
    (hwidth : widthOfMark mark = some width) (hwide : width ≤ widest)
    (hn : n < Nat.pow 256 width) (rest : Bytes) :
    getCount widest (mark :: littleEndian width n ++ rest) = some (n, rest) := by
  have hroom : ¬ widest < width := by omega
  rw [List.cons_append, getCount, if_neg hmark, hwidth]
  simp only [Option.bind_eq_bind, Option.bind_some, if_neg hroom,
    take?_append_of_eq (length_littleEndian width n) rest, ofLittleEndian_littleEndian hn]

/-- A count is read from before other bytes, if its form is not too long. -/
theorem getCount_putCount {widest n : Nat}
    (hbytes : widest = 2 ∧ n < UInt16.size ∨ widest = 4 ∧ n < UInt32.size ∨
      widest = 8 ∧ n < UInt64.size) (rest : Bytes) :
    getCount widest (putCount n ++ rest) = some (n, rest) := by
  have h16 : UInt16.size = 65536 := rfl
  have h32 : UInt32.size = 4294967296 := rfl
  have h64 : UInt64.size = 18446744073709551616 := rfl
  unfold putCount
  split
  · rename_i hsmall
    have hbyte : (UInt8.ofNat n).toNat = n := by
      rw [UInt8.toNat_ofNat']
      omega
    have hshort : UInt8.ofNat n < 251 := by
      rw [UInt8.lt_iff_toNat_lt, hbyte]
      exact hsmall
    rw [List.singleton_append, getCount, if_pos hshort, hbyte]
  · split
    · rename_i hmiddle
      exact getCount_mark (by decide) rfl (by omega) hmiddle rest
    · split
      · rename_i hlong
        exact getCount_mark (by decide) rfl (by omega) hlong rest
      · refine getCount_mark (by decide) rfl (by omega) ?_ rest
        show n < 18446744073709551616
        omega

/-- A signed number of some bits folds into a natural one of as many bits. -/
theorem fold_lt {n : Int} {bound : Nat} (hlow : -(bound : Int) ≤ n) (hhigh : n < bound) :
    fold n < 2 * bound := by
  cases n with
  | ofNat n =>
    have h : (n : Int) < bound := hhigh
    show 2 * n < 2 * bound
    omega
  | negSucc n =>
    show 2 * n + 1 < 2 * bound
    omega

end RatingServer.Wire
