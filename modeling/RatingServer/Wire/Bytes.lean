import RatingServer.Text.Basic

/-!
# Bytes

Numbers and texts as bytes. A count takes one byte while it is small, and a mark
followed by two, four or eight bytes in little-endian order beyond that. A signed
number is folded into a natural one first, so that small magnitudes stay short.

A stream of bytes is cut into lines. A line ends with a newline; a carriage return
before it is no part of its text.
-/

namespace RatingServer.Wire

/-- A sequence of bytes. -/
abbrev Bytes := List UInt8

/-- The lowest `count` bytes of a number, lowest byte first. -/
def littleEndian : Nat → Nat → Bytes
  | 0, _ => []
  | count + 1, n => UInt8.ofNat n :: littleEndian count (n / 256)

/-- The number whose bytes are given lowest byte first. -/
def ofLittleEndian : Bytes → Nat
  | [] => 0
  | b :: bs => b.toNat + 256 * ofLittleEndian bs

/-- The number whose bytes are given highest byte first. -/
def ofBigEndian (bs : Bytes) : Nat := ofLittleEndian bs.reverse

/-- The lowest `count` bytes of a number, highest byte first. -/
def bigEndian (count n : Nat) : Bytes := (littleEndian count n).reverse

/-- The first bytes, and those after them. -/
def take? (count : Nat) (bs : Bytes) : Option (Bytes × Bytes) :=
  if (bs.take count).length = count then some (bs.take count, bs.drop count) else none

/-- The bytes of a count. -/
def putCount (n : Nat) : Bytes :=
  if n < 251 then [UInt8.ofNat n]
  else if n < UInt16.size then 251 :: littleEndian 2 n
  else if n < UInt32.size then 252 :: littleEndian 4 n
  else 253 :: littleEndian 8 n

/-- The number of bytes that follow a mark. -/
def widthOfMark : UInt8 → Option Nat
  | 251 => some 2
  | 252 => some 4
  | 253 => some 8
  | _ => none

/-- Reads a count whose long form has at most `widest` bytes. -/
def getCount (widest : Nat) : Bytes → Option (Nat × Bytes)
  | [] => none
  | b :: bs =>
    if b < 251 then some (b.toNat, bs)
    else do
      let width ← widthOfMark b
      if widest < width then none
      else
        let (number, rest) ← take? width bs
        some (ofLittleEndian number, rest)

/-- A signed number folded into a natural one: 0, -1, 1, -2, 2 and so on. -/
def fold : Int → Nat
  | .ofNat n => 2 * n
  | .negSucc n => 2 * n + 1

/-- The signed number that a natural one was folded from. -/
def unfold (n : Nat) : Int := if n % 2 = 0 then .ofNat (n / 2) else .negSucc (n / 2)

theorem unfold_fold (n : Int) : unfold (fold n) = n := by
  cases n with
  | ofNat n => simp [fold, unfold]
  | negSucc n =>
    have h : (2 * n + 1) % 2 = 1 := by omega
    have h' : (2 * n + 1) / 2 = n := by omega
    simp [fold, unfold, h, h']

/-- The UTF-8 bytes of a text. -/
def utf8 (s : String) : Bytes := s.toUTF8.data.toList

/-- The text of some UTF-8 bytes. -/
def ofUtf8? (bs : Bytes) : Option String := String.fromUTF8? ⟨bs.toArray⟩

theorem ofUtf8?_utf8 (s : String) : ofUtf8? (utf8 s) = some s := by
  simp only [ofUtf8?, utf8, String.fromUTF8?, Array.toArray_toList]
  exact dif_pos s.isValidUTF8

/-- Two lower-case hexadecimal digits for each byte. -/
def hex (bs : Bytes) : String :=
  String.ofList (bs.flatMap fun b => [(b.toNat / 16).digitChar, (b.toNat % 16).digitChar])

/-- The bytes that pairs of hexadecimal digits denote. -/
def ofHex? : List Char → Option Bytes
  | [] => some []
  | [_] => none
  | a :: b :: cs => do
    let high ← Text.hexValue? a
    let low ← Text.hexValue? b
    return UInt8.ofNat (16 * high + low) :: (← ofHex? cs)

/-- The byte that ends a line. -/
def newline : UInt8 := 10

/-- The byte that may stand before the end of a line. -/
def carriageReturn : UInt8 := 13

/-- The whole lines of some bytes, without their ends, and the bytes after the last
of them. -/
def splitLines (bs : Bytes) : List Bytes × Bytes :=
  let r := bs.foldl
    (fun (r : List Bytes × Bytes) b =>
      if b = newline then (r.2.reverse :: r.1, []) else (r.1, b :: r.2))
    ([], [])
  (r.1.reverse, r.2.reverse)

/-- The text of a line without its end. -/
def lineText? (line : Bytes) : Option String :=
  ofUtf8? (if line.getLast? = some carriageReturn then line.dropLast else line)

/-- The bytes up to the end of the first line, but at most some number of them. -/
def firstLine (limit : Nat) (bs : Bytes) : Bytes :=
  let text := (bs.take limit).takeWhile (· ≠ newline)
  if (bs.take limit)[text.length]? = some newline then text ++ [newline] else text

end RatingServer.Wire
