import RatingServer.Decimal.Literal
import RatingServer.Json.Document
import RatingServer.Text.Basic

/-!
# Words

What a word without quotes stands for in a settings text: null, a truth value, a
number, or itself. An integer has no leading zeros and may be written in one of four
bases; a word that looks like a number but denotes none stands for itself.
-/

namespace RatingServer.Flow

open Json (Document)
open Decimal (Literal)

/-- The words for null. -/
def nullWords : List String := ["", "~", "null", "Null", "NULL"]

/-- The words for true. -/
def trueWords : List String := ["true", "True", "TRUE"]

/-- The words for false. -/
def falseWords : List String := ["false", "False", "FALSE"]

/-- The base that a numeral names, and its digits. -/
def splitBase? : List Char → Option (Nat × List Char)
  | '0' :: 'x' :: cs => some (16, cs)
  | '0' :: 'o' :: cs => some (8, cs)
  | '0' :: 'b' :: cs => some (2, cs)
  | _ => none

/-- The number that one or more digits of a base denote. -/
def digitsIn? (base : Nat) (cs : List Char) : Option Nat :=
  if cs.isEmpty then none
  else cs.foldl (fun n c => do
    let n ← n
    let d ← (Text.hexValue? c).filter (· < base)
    return base * n + d) (some 0)

/-- Whether digits begin with a zero that does not stand alone. -/
def hasLeadingZero (cs : List Char) : Bool :=
  1 < cs.length && cs.head? == some '0' && cs.all Char.isDigit

/-- The natural number that a word denotes. -/
def natural? (cs : List Char) : Option Nat :=
  match splitBase? cs with
  | some (base, cs) => digitsIn? base cs
  | none => if hasLeadingZero cs then none else digitsIn? 10 cs

/-- The integer of at most 128 bits that a word denotes. -/
def integer? : List Char → Option Int
  | '-' :: cs => ((natural? cs).filter (· ≤ Nat.pow 2 127)).map fun n => -(n : Int)
  | '+' :: cs => ((natural? cs).filter (· < Nat.pow 2 128)).map Int.ofNat
  | cs => ((natural? cs).filter (· < Nat.pow 2 128)).map Int.ofNat

/-- The words for what is no finite number. -/
def limitWords : List (String × Float) :=
  let infinity := 1.0 / 0.0
  (["", "+"].flatMap fun s => [".inf", ".Inf", ".INF"].map fun w => (s ++ w, infinity)) ++
    (["-.inf", "-.Inf", "-.INF"].map fun w => (w, -infinity)) ++
    [".nan", ".NaN", ".NAN"].map fun w => (w, 0.0 / 0.0)

/-- The finite number that a word denotes. -/
def finite? (cs : List Char) : Option Float :=
  let unsigned := match cs with
    | '-' :: cs | '+' :: cs => cs
    | cs => cs
  let numeral := match cs with
    | '+' :: '-' :: _ => []
    | '+' :: cs => cs
    | cs => cs
  if hasLeadingZero unsigned then none
  else (Literal.ofNumeral? numeral).bind Literal.nearest?

/-- What a word stands for. -/
def wordValue (word : String) : Document :=
  if word ∈ nullWords then .null
  else if word ∈ trueWords then .bool true
  else if word ∈ falseWords then .bool false
  else match integer? word.toList with
    | some n => .num (some (.integer n))
    | none =>
      match limitWords.lookup word <|> finite? word.toList with
      | some x => .num (some (.real (.ofFloat x)))
      | none => .str (some word)

end RatingServer.Flow
