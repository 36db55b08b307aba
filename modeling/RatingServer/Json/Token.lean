import RatingServer.Decimal.Literal
import RatingServer.Text.Basic

/-!
# Tokens of data text

Data text is split into tokens by a machine that looks at one character at a
time. It stops at the first character that no token can begin or go on with:
what stands before it has been read, and the last token says that the text is
broken there. A text or number can be well formed and still denote nothing: a
text with half of a surrogate pair, a number beyond all finite numbers.
-/

namespace RatingServer.Json

open Decimal (Number Literal)

/-- A token of data text. -/
inductive Token where
  /-- An opening square bracket. -/
  | openList
  /-- A closing square bracket. -/
  | closeList
  /-- An opening brace. -/
  | openRecord
  /-- A closing brace. -/
  | closeRecord
  /-- A colon. -/
  | colon
  /-- A comma. -/
  | comma
  /-- The word for null. -/
  | null
  /-- A word for a truth value. -/
  | bool (b : Bool)
  /-- A number, or nothing if it is too large. -/
  | num (n : Option Number)
  /-- A text, or nothing if it holds half of a surrogate pair. -/
  | str (s : Option String)
  /-- The place at which the text stops being data text. -/
  | broken
  deriving DecidableEq

/-- The first units of surrogate pairs. -/
def isHighSurrogate (n : Nat) : Bool := 0xD800 ≤ n && n < 0xDC00

/-- The second units of surrogate pairs. -/
def isLowSurrogate (n : Nat) : Bool := 0xDC00 ≤ n && n < 0xE000

/-- What has been read of a text between quotes. -/
structure TextRead where
  /-- The characters, last character first. -/
  chars : List Char := []
  /-- The first unit of a surrogate pair whose second unit must come next. -/
  high : Option Nat := none
  /-- Whether every surrogate so far stood in a pair. -/
  paired : Bool := true
  deriving DecidableEq

/-- Reads a character. -/
def TextRead.push (t : TextRead) (c : Char) : TextRead :=
  ⟨c :: t.chars, none, t.paired && t.high.isNone⟩

/-- Reads a 16-bit unit. -/
def TextRead.pushUnit (t : TextRead) (n : Nat) : TextRead :=
  match t.high with
  | some high =>
    if isLowSurrogate n then
      ⟨Char.ofNat (0x10000 + (high - 0xD800) * 0x400 + (n - 0xDC00)) :: t.chars, none, t.paired⟩
    else ⟨t.chars, none, false⟩
  | none =>
    if isHighSurrogate n then ⟨t.chars, some n, t.paired⟩
    else if isLowSurrogate n then ⟨t.chars, none, false⟩
    else t.push (Char.ofNat n)

/-- The text at its closing quote; nothing if half of a surrogate pair stands
alone in it. -/
def TextRead.text? (t : TextRead) : Option String :=
  if t.paired && t.high.isNone then some (String.ofList t.chars.reverse) else none

/-- The part of a number that the machine is in. -/
inductive Phase where
  /-- After the minus sign. -/
  | sign
  /-- After a leading zero. -/
  | zero
  /-- Among the digits before the point. -/
  | whole
  /-- After the point. -/
  | point
  /-- Among the digits after the point. -/
  | fraction
  /-- After the exponent mark. -/
  | mark
  /-- After the sign of the exponent. -/
  | markSign
  /-- Among the digits of the exponent. -/
  | power
  deriving DecidableEq

/-- What the machine has read of the current token. -/
inductive Scan where
  /-- Between tokens. -/
  | gap
  /-- Inside a word: what is still to come, and the token that it stands for. -/
  | word (rest : List Char) (token : Token)
  /-- Inside a number. -/
  | number (phase : Phase) (literal : Literal)
  /-- Inside a text. -/
  | text (read : TextRead)
  /-- After a backslash inside a text. -/
  | escape (read : TextRead)
  /-- Among the hexadecimal digits of a unit, with the number of digits still to
  come and the number that those before them denote. -/
  | unit (read : TextRead) (left : Nat) (value : Nat)
  /-- Past the place at which the text is broken. -/
  | stopped

/-- The white space between tokens. -/
def isGap (c : Char) : Bool := c == ' ' || c == '\n' || c == '\t' || c == '\r'

/-- The character that a short escape stands for. -/
def shortEscape? : Char → Option Char
  | '"' => some '"'
  | '\\' => some '\\'
  | '/' => some '/'
  | 'b' => some '\x08'
  | 'f' => some '\x0c'
  | 'n' => some '\n'
  | 'r' => some '\r'
  | 't' => some '\t'
  | _ => none

/-- The text is broken here. -/
def broken : List Token × Scan := ([.broken], .stopped)

/-- The tokens that a character between tokens completes, and what it begins. -/
def begin (c : Char) : List Token × Scan :=
  if isGap c then ([], .gap)
  else match c with
    | '[' => ([.openList], .gap)
    | ']' => ([.closeList], .gap)
    | '\x7b' => ([.openRecord], .gap)
    | '\x7d' => ([.closeRecord], .gap)
    | ':' => ([.colon], .gap)
    | ',' => ([.comma], .gap)
    | '"' => ([], .text {})
    | 'n' => ([], .word ['u', 'l', 'l'] .null)
    | 't' => ([], .word ['r', 'u', 'e'] (.bool true))
    | 'f' => ([], .word ['a', 'l', 's', 'e'] (.bool false))
    | '-' => ([], .number .sign ⟨true, [], none, false, none⟩)
    | '0' => ([], .number .zero ⟨false, ['0'], none, false, none⟩)
    | c => if c.isDigit then ([], .number .whole ⟨false, [c], none, false, none⟩) else broken

/-- The phases in which a number can end. -/
def Phase.complete : Phase → Bool
  | .zero | .whole | .fraction | .power => true
  | .sign | .point | .mark | .markSign => false

/-- How a number goes on with a character; nothing if it does not. -/
def extend? (phase : Phase) (l : Literal) (c : Char) : Option (Phase × Literal) :=
  let isMark := c == 'e' || c == 'E'
  match phase with
  | .sign =>
    if c == '0' then some (.zero, { l with whole := ['0'] })
    else if c.isDigit then some (.whole, { l with whole := [c] })
    else none
  | .zero =>
    if c == '.' then some (.point, l)
    else if isMark then some (.mark, l)
    else none
  | .whole =>
    if c.isDigit then some (.whole, { l with whole := c :: l.whole })
    else if c == '.' then some (.point, l)
    else if isMark then some (.mark, l)
    else none
  | .point => if c.isDigit then some (.fraction, { l with fraction := some [c] }) else none
  | .fraction =>
    if c.isDigit then some (.fraction, { l with fraction := some (c :: l.fraction.getD []) })
    else if isMark then some (.mark, l)
    else none
  | .mark =>
    if c.isDigit then some (.power, { l with power := some [c] })
    else if c == '+' then some (.markSign, l)
    else if c == '-' then some (.markSign, { l with shrinks := true })
    else none
  | .markSign => if c.isDigit then some (.power, { l with power := some [c] }) else none
  | .power =>
    if c.isDigit then some (.power, { l with power := some (c :: l.power.getD []) }) else none

/-- One step of the machine: the tokens that a character completes, and what
has been read after it. -/
def Scan.step (s : Scan) (c : Char) : List Token × Scan :=
  match s with
  | .gap => begin c
  | .word rest token =>
    match rest with
    | [] => broken
    | [d] => if c = d then ([token], .gap) else broken
    | d :: rest => if c = d then ([], .word rest token) else broken
  | .number phase l =>
    match extend? phase l c with
    | some (phase, l) => ([], .number phase l)
    | none =>
      if !phase.complete || (phase == .zero && c.isDigit) then broken
      else ((.num l.number?) :: (begin c).1, (begin c).2)
  | .text read =>
    if c == '"' then ([.str read.text?], .gap)
    else if c == '\\' then ([], .escape read)
    else if c.toNat < 0x20 then broken
    else ([], .text (read.push c))
  | .escape read =>
    if c == 'u' then ([], .unit read 4 0)
    else match shortEscape? c with
      | some d => ([], .text (read.push d))
      | none => broken
  | .unit read left value =>
    match Text.hexValue? c with
    | none => broken
    | some d =>
      if left ≤ 1 then ([], .text (read.pushUnit (16 * value + d)))
      else ([], .unit read (left - 1) (16 * value + d))
  | .stopped => ([], .stopped)

/-- The tokens that the end of the text completes. -/
def Scan.finish : Scan → List Token
  | .gap | .stopped => []
  | .number phase l => if phase.complete then [.num l.number?] else [.broken]
  | .word _ _ | .text _ | .escape _ | .unit _ _ _ => [.broken]

end RatingServer.Json
