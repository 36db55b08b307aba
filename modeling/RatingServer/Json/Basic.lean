import RatingServer.Decimal.Literal
import RatingServer.Decimal.Shortest

/-!
# Data values

The tree that is written as data text: null, truth values, numbers, texts,
lists, and records with members in the order in which they are written. Its text is
compact, without any space, or laid out with one item on a line and two spaces for
each level. A number that is not finite is written as null. In texts only quotes,
backslashes and characters below the space are escaped.
-/

namespace RatingServer

open Decimal (Number)

/-- A value to be written as data text. -/
inductive Json where
  /-- The null value. -/
  | null
  /-- A truth value. -/
  | bool (b : Bool)
  /-- A number. -/
  | num (n : Number)
  /-- A text. -/
  | str (s : String)
  /-- A list. -/
  | arr (items : List Json)
  /-- A record. -/
  | obj (members : List (String × Json))
  deriving Inhabited

namespace Json

/-- An integer as a value. -/
def int (n : Int) : Json := .num (.integer n)

/-- A natural number as a value. -/
def nat (n : Nat) : Json := .num (.integer n)

/-- A floating-point number as a value. -/
def real (x : Double) : Json := .num (.real x)

/-- A value that may be absent; null stands for its absence. -/
def option (f : α → Json) : Option α → Json
  | none => .null
  | some a => f a

/-- A list of values. -/
def list (f : α → Json) (l : List α) : Json := .arr (l.map f)

/-- A list of texts. -/
def strings (l : List String) : Json := list .str l

/-- A hexadecimal digit in lower case. -/
def hexDigit (n : Nat) : Char := (n % 16).digitChar

/-- A character as it stands in a written text. -/
def escape (c : Char) : List Char :=
  match c with
  | '"' => ['\\', '"']
  | '\\' => ['\\', '\\']
  | '\n' => ['\\', 'n']
  | '\r' => ['\\', 'r']
  | '\t' => ['\\', 't']
  | '\x08' => ['\\', 'b']
  | '\x0c' => ['\\', 'f']
  | c =>
    if c.toNat < 0x20 then ['\\', 'u', '0', '0', hexDigit (c.toNat / 16), hexDigit c.toNat]
    else [c]

/-- A text between its quotes. -/
def textOf (s : String) : List Char := '"' :: s.toList.flatMap escape ++ ['"']

/-- The text of an integer. -/
def integerText (n : Int) : List Char :=
  if n < 0 then '-' :: Decimal.digitsOf n.natAbs else Decimal.digitsOf n.natAbs

/-- The text of a number. -/
def numberText : Number → List Char
  | .integer n => integerText n
  | .real x => (Decimal.text? x).getD ['n', 'u', 'l', 'l']

/-- The text of a truth value. -/
def boolText (b : Bool) : List Char :=
  if b then ['t', 'r', 'u', 'e'] else ['f', 'a', 'l', 's', 'e']

mutual

/-- The text of a value without any space. -/
def chars : Json → List Char
  | .null => ['n', 'u', 'l', 'l']
  | .bool b => boolText b
  | .num n => numberText n
  | .str s => textOf s
  | .arr items => '[' :: itemChars items ++ [']']
  | .obj members => '\x7b' :: memberChars members ++ ['\x7d']

/-- The items of a list with commas between them. -/
def itemChars : List Json → List Char
  | [] => []
  | [j] => j.chars
  | j :: js => j.chars ++ ',' :: itemChars js

/-- The members of a record with commas between them. -/
def memberChars : List (String × Json) → List Char
  | [] => []
  | [(k, j)] => textOf k ++ ':' :: j.chars
  | (k, j) :: ms => textOf k ++ ':' :: j.chars ++ ',' :: memberChars ms

end

/-- The text of a value without any space. -/
def compact (j : Json) : String := String.ofList j.chars

/-- The start of a line at a depth. -/
def newLine (depth : Nat) : List Char := '\n' :: List.replicate (2 * depth) ' '

mutual

/-- The text of a value at a depth, one item on a line. -/
def laidOut (depth : Nat) : Json → List Char
  | .arr [] => ['[', ']']
  | .arr items => '[' :: laidOutItems (depth + 1) items ++ newLine depth ++ [']']
  | .obj [] => ['\x7b', '\x7d']
  | .obj members => '\x7b' :: laidOutMembers (depth + 1) members ++ newLine depth ++ ['\x7d']
  | .null => ['n', 'u', 'l', 'l']
  | .bool b => boolText b
  | .num n => numberText n
  | .str s => textOf s

/-- The items of a list, each on its line. -/
def laidOutItems (depth : Nat) : List Json → List Char
  | [] => []
  | [j] => newLine depth ++ laidOut depth j
  | j :: js => newLine depth ++ laidOut depth j ++ ',' :: laidOutItems depth js

/-- The members of a record, each on its line. -/
def laidOutMembers (depth : Nat) : List (String × Json) → List Char
  | [] => []
  | [(k, j)] => newLine depth ++ textOf k ++ ':' :: ' ' :: laidOut depth j
  | (k, j) :: ms =>
    newLine depth ++ textOf k ++ ':' :: ' ' :: laidOut depth j ++ ',' :: laidOutMembers depth ms

end

/-- The text of a value, one item on a line. -/
def pretty (j : Json) : String := String.ofList (laidOut 0 j)

end Json

end RatingServer
