import RatingServer.Decimal.Double

/-!
# Number literals

The number that a literal of a data text denotes. A literal without point and
exponent is an integer while it fits the machine words of its sign. Any other
literal is a floating-point number: its digits are gathered into one 64-bit
significand, digits that no longer fit are dropped, and the significand is then
scaled by a power of ten in floating-point arithmetic.

A decimal numeral of the settings is rounded once instead, from its exact value. A
numeral beyond all finite numbers denotes none.
-/

namespace RatingServer.Decimal

/-- A number of a data text. -/
inductive Number where
  /-- An integer. -/
  | integer (n : Int)
  /-- A floating-point number. -/
  | real (x : Double)
  deriving DecidableEq, Repr

/-- The parts of a number literal. -/
structure Literal where
  /-- Whether it begins with a minus sign. -/
  negative : Bool := false
  /-- The digits before the point, last digit first. -/
  whole : List Char := []
  /-- The digits after the point, last digit first. -/
  fraction : Option (List Char) := none
  /-- Whether the exponent is negative. -/
  shrinks : Bool := false
  /-- The digits of the exponent, last digit first. -/
  power : Option (List Char) := none
  deriving DecidableEq, Repr

/-- One more than the greatest significand. -/
def significandBound : Nat := UInt64.size

/-- One more than the greatest power of ten that is counted. -/
def powerBound : Nat := 0x80000000

/-- Digits gathered so far, and the power of ten that the gathering left. -/
structure Gathered where
  /-- The significand. -/
  significand : Nat
  /-- The power of ten to scale it by. -/
  exponent : Int
  deriving DecidableEq, Repr

/-- Gathers digits before the point; from the first digit that does not fit on,
each digit only counts. -/
def gatherWhole (n : Nat) : List Char → Gathered
  | [] => ⟨n, 0⟩
  | c :: cs =>
    let next := 10 * n + (c.toNat - '0'.toNat)
    if next < significandBound then gatherWhole next cs else ⟨n, cs.length + 1⟩

/-- Gathers digits after the point; from the first digit that does not fit on,
each digit is dropped. -/
def gatherFraction (g : Gathered) : List Char → Gathered
  | [] => g
  | c :: cs =>
    let next := 10 * g.significand + (c.toNat - '0'.toNat)
    if next < significandBound then gatherFraction ⟨next, g.exponent - 1⟩ cs else g

/-- A number scaled by a power of ten; nothing if it grows beyond all finite
numbers. Shrinking by more than 308 places is done 308 places at a time. -/
def scale? (x : Float) (exponent : Int) : Option Float :=
  if 308 < exponent then
    if x == 0.0 then some x else none
  else if 0 ≤ exponent then
    let y := x * Float.ofScientific 1 false exponent.toNat
    if y.isInf then none else some y
  else shrink x exponent.natAbs
where
  /-- The number divided by a power of ten. -/
  shrink (x : Float) (places : Nat) : Option Float :=
    if places ≤ 308 then some (x / Float.ofScientific 1 false places)
    else if x == 0.0 then some x
    else shrink (x / Float.ofScientific 1 false 308) (places - 308)
  termination_by places

/-- A number with a sign. -/
def signed (negative : Bool) (x : Float) : Float := if negative then -x else x

/-- The floating-point number of a literal; nothing if it is too large. -/
def Literal.real? (l : Literal) : Option Float :=
  let gathered := gatherFraction (gatherWhole 0 l.whole.reverse) ((l.fraction.getD []).reverse)
  let power := (l.power.getD []).reverse.foldl
    (fun e c => e.bind fun e =>
      let next := 10 * e + (c.toNat - '0'.toNat)
      if next < powerBound then some next else none)
    (some 0)
  match power with
  | none =>
    if gathered.significand ≠ 0 && !l.shrinks then none else some (signed l.negative 0.0)
  | some power =>
    let exponent := if l.shrinks then gathered.exponent - power else gathered.exponent + power
    (scale? gathered.significand.toUInt64.toFloat exponent).map (signed l.negative)

/-- The number of a literal; nothing if it is too large for a number. -/
def Literal.number? (l : Literal) : Option Number :=
  let real? := l.real?.map fun x => .real (.ofFloat x)
  match l.fraction, l.power with
  | none, none =>
    let n := Nat.ofDigitChars 10 l.whole.reverse 0
    if !l.negative && n < significandBound then some (.integer n)
    else if l.negative && n ≠ 0 && n ≤ significandBound / 2 then some (.integer (-n))
    else real?
  | _, _ => real?

/-- The digits at the start of a text, and what follows them. -/
def splitDigits (cs : List Char) : List Char × List Char :=
  (cs.takeWhile Char.isDigit, cs.dropWhile Char.isDigit)

/-- The exponent of a numeral, after its mark: an optional sign and one or more
digits. -/
def withPower? (l : Literal) (cs : List Char) : Option Literal :=
  let (shrinks, cs) := match cs with
    | '-' :: cs => (true, cs)
    | '+' :: cs => (false, cs)
    | cs => (false, cs)
  if !cs.isEmpty && cs.all Char.isDigit then some { l with shrinks, power := some cs.reverse }
  else none

/-- The parts of a numeral: an optional minus sign, digits on at least one side of
an optional point, and an optional exponent. -/
def Literal.ofNumeral? (cs : List Char) : Option Literal :=
  let (negative, cs) := match cs with
    | '-' :: cs => (true, cs)
    | cs => (false, cs)
  let (whole, rest) := splitDigits cs
  let (fraction, rest) := match rest with
    | '.' :: rest => ((splitDigits rest).1, (splitDigits rest).2)
    | rest => ([], rest)
  let l : Literal := ⟨negative, whole.reverse, some fraction.reverse, false, none⟩
  if whole.isEmpty && fraction.isEmpty then none
  else match rest with
    | [] => some l
    | c :: rest => if c == 'e' || c == 'E' then withPower? l rest else none

/-- The floating-point number nearest to the exact value of a literal; nothing if it
is not finite. A number of more than 309 digits before the point is beyond all finite
numbers, and one whose first digit is the 400th after the point counts as zero. -/
def Literal.nearest? (l : Literal) : Option Float :=
  let fraction := (l.fraction.getD []).reverse
  let digits := Nat.ofDigitChars 10 (l.whole.reverse ++ fraction) 0
  let power : Int := Nat.ofDigitChars 10 (l.power.getD []).reverse 0
  let exponent := (if l.shrinks then -power else power) - fraction.length
  let size := (Nat.toDigits 10 digits).length + exponent
  let x :=
    if digits = 0 || size < -400 then some 0.0
    else if 309 < size then none
    else some (Float.ofScientific digits (decide (exponent < 0)) exponent.natAbs)
  (x.filter Float.isFinite).map (signed l.negative)

end RatingServer.Decimal
