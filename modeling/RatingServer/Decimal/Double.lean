/-!
# Floating-point numbers

A floating-point number is told by its word of 64 bits, so that the many words of what
is not a number stay apart: they are exchanged as they are, and the order of all words
tells them apart. Arithmetic is that of the numbers that the words stand for. Where a
term is not a number, the result has the word of that term with its quiet bit set, and
of two such terms that of the first; a result that is none of its own accord has one
word, which is below all numbers.
-/

namespace RatingServer

/-- The value of a word's sign bit. -/
def Decimal.signBit : Nat := 0x8000000000000000

/-- A floating-point number of 64 bits. -/
structure Double where
  /-- The word: the sign, eleven bits of exponent and 52 bits of significand. -/
  bits : UInt64
  deriving DecidableEq, Repr

namespace Double

open Decimal (signBit)

/-- The number that the word stands for. All words of what is not a number stand for
the same. -/
def toFloat (x : Double) : Float := .ofBits x.bits

/-- The word of a number. -/
def ofFloat (x : Float) : Double := ⟨x.toBits⟩

/-- The nearest number to an integer. -/
def ofInt (n : Int) : Double := .ofFloat (Float.ofInt n)

/-- The nearest number to a natural number. -/
def ofNat (n : Nat) : Double := .ofFloat (Float.ofNat n)

instance : OfScientific Double := ⟨fun m negative e => .ofFloat (.ofScientific m negative e)⟩

/-- The number with the other sign. -/
def neg (x : Double) : Double := ⟨x.bits ^^^ UInt64.ofNat signBit⟩

instance : Neg Double := ⟨neg⟩

/-- Whether the word stands for a number that is not infinite. -/
def isFinite (x : Double) : Bool := x.toFloat.isFinite

/-- Whether the word stands for what is not a number. -/
def isNaN (x : Double) : Bool := x.toFloat.isNaN

/-- The bits after the sign, as a number. -/
def magnitude (x : Double) : Nat := x.bits.toNat % signBit

/-- Whether the sign bit is set. -/
def isNegative (x : Double) : Bool := signBit ≤ x.bits.toNat

/-- The word with the bit set that marks a quiet one among those of what is not a
number. -/
def quiet (x : Double) : Double := ⟨x.bits ||| 0x8000000000000⟩

/-- The result of an operation that has none, such as the sum of two infinities of
different signs. -/
def invalid : Double := ⟨0xFFF8000000000000⟩

/-- The word that is the result of an operation on the numbers of two words. -/
def combine (op : Float → Float → Float) (x y : Double) : Double :=
  if x.isNaN then x.quiet
  else if y.isNaN then y.quiet
  else
    let z := op x.toFloat y.toFloat
    if z.isNaN then invalid else .ofFloat z

instance : Add Double := ⟨combine (· + ·)⟩

instance : Div Double := ⟨combine (· / ·)⟩

/-- Whether two words stand for equal numbers: the two zeros are equal, and what is not
a number equals nothing. -/
def agrees (x y : Double) : Bool := x.toFloat == y.toFloat

/-- The place of a word in the order of all words: by magnitude, those with the sign
bit backwards and below all others. -/
def rank (x : Double) : Int :=
  if x.isNegative then -1 - x.magnitude else x.magnitude

end Double

end RatingServer
