import RatingServer.Decimal.Double

/-!
# Shortest decimals

A floating-point number stands for an interval of real numbers: those that
round to it. Its shortest decimal is the point of that interval on the coarsest
grid of multiples of a power of ten that meets the interval; of two such points
the nearer one to the number, and of two equally near ones the even multiple.

The text of a number has the digits of its shortest decimal, with a point among
them while the number lies between `0.00001` and `1e16`, and with an exponent
beyond that. A whole number in positional form ends in `.0`.
-/

namespace RatingServer.Decimal

/-- The positive number `significand * 2 ^ exponent`, with what is needed to
know its neighbours. -/
structure Binary where
  /-- The integer significand. -/
  significand : Nat
  /-- The power of two. -/
  exponent : Int
  /-- Whether the gap below is half the gap above, as at a power of two. -/
  narrowBelow : Bool
  deriving DecidableEq, Repr

/-- The number `digits * 10 ^ exponent`. -/
structure Scaled where
  /-- The multiple. -/
  digits : Nat
  /-- The power of ten. -/
  exponent : Int
  deriving DecidableEq, Repr

/-- The value of the bit that a significand begins with and a word does not store. -/
def leadingBit : Nat := 0x10000000000000

/-- The magnitude of a finite number that is not zero, by its word. -/
def Binary.ofBits (bits : UInt64) : Binary :=
  let fraction : Nat := bits.toNat % leadingBit
  let biased : Nat := bits.toNat % signBit / leadingBit
  if biased = 0 then ⟨fraction, -1074, false⟩
  else ⟨fraction + leadingBit, (biased : Int) - 1075, fraction = 0 && 1 < biased⟩

/-- The interval of a number on the grid of multiples of a power of ten: the
number itself and the two ends, over one denominator. -/
structure Interval where
  /-- Numerator of the lower end. -/
  low : Nat
  /-- Numerator of the number. -/
  middle : Nat
  /-- Numerator of the upper end. -/
  high : Nat
  /-- The common denominator, one grid step. -/
  step : Nat
  /-- Whether the ends belong to the interval. -/
  closed : Bool

/-- The interval of a number, seen on the grid of multiples of `10 ^ k`. -/
def Binary.interval (b : Binary) (k : Int) : Interval :=
  let e := b.exponent - 2
  let scale := Nat.pow 2 e.toNat * Nat.pow 10 (-k).toNat
  { low := (4 * b.significand - if b.narrowBelow then 1 else 2) * scale
    middle := 4 * b.significand * scale
    high := (4 * b.significand + 2) * scale
    step := Nat.pow 2 (-e).toNat * Nat.pow 10 k.toNat
    closed := b.significand % 2 = 0 }

/-- Whether a multiple of the grid step lies in the interval. -/
def Interval.holds (i : Interval) (d : Nat) : Bool :=
  if i.closed then i.low ≤ d * i.step && d * i.step ≤ i.high
  else i.low < d * i.step && d * i.step < i.high

/-- The grid point of the interval that lies nearest to the number. -/
def Interval.nearest? (i : Interval) : Option Nat :=
  let below := i.middle / i.step
  let above := below + 1
  match below != 0 && i.holds below, i.holds above with
  | false, false => none
  | true, false => some below
  | false, true => some above
  | true, true =>
    let down := i.middle - below * i.step
    let up := above * i.step - i.middle
    some (if down < up || (down = up && below % 2 = 0) then below else above)

/-- The point on the first grid that meets the interval, from the grid `10 ^ k`
to finer ones. -/
def Binary.search (b : Binary) : Nat → Int → Scaled
  | 0, k => ⟨(b.interval k).middle / (b.interval k).step, k⟩
  | n + 1, k =>
    match (b.interval k).nearest? with
    | some d => ⟨d, k⟩
    | none => b.search n (k - 1)

/-- The shortest decimal of a number. The search starts above the number's
leading digit, and seventeen digits always suffice. -/
def Binary.shortest (b : Binary) : Scaled :=
  let size := b.exponent + b.significand.log2 + 1
  b.search 20 (size * 30103 / 100000 + 1)

/-- The digits of a number. -/
def digitsOf (n : Nat) : List Char := Nat.toDigits 10 n

/-- The exponent part, with its sign always written. -/
def exponentText (e : Int) : List Char :=
  'e' :: (if e < 0 then '-' else '+') :: digitsOf e.natAbs

/-- The text of a positive decimal. `point` counts the digits before the
decimal point. -/
def Scaled.text (d : Scaled) : List Char :=
  let ds := digitsOf d.digits
  let point : Int := ds.length + d.exponent
  if 0 ≤ d.exponent && point ≤ 16 then
    ds ++ List.replicate d.exponent.toNat '0' ++ ['.', '0']
  else if 0 < point && point ≤ 16 then
    ds.take point.toNat ++ '.' :: ds.drop point.toNat
  else if -5 < point && point ≤ 0 then
    '0' :: '.' :: List.replicate (-point).toNat '0' ++ ds
  else
    match ds with
    | [] => []
    | [c] => c :: exponentText (point - 1)
    | c :: cs => c :: '.' :: cs ++ exponentText (point - 1)

/-- The text of a floating-point number, or nothing for infinities and for what
is not a number. -/
def text? (x : Double) : Option (List Char) :=
  if x.isFinite then
    let sign := if x.isNegative then ['-'] else []
    if x.magnitude = 0 then some (sign ++ ['0', '.', '0'])
    else some (sign ++ (Binary.ofBits x.bits).shortest.text)
  else none

end RatingServer.Decimal
