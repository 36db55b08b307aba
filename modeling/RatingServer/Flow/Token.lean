import RatingServer.Flow.Folding
import RatingServer.Text.Basic

/-!
# Tokens of settings text

Settings text is split into tokens by a machine that looks at one character at a
time. A text stands between double quotes, where escapes are read, between single
quotes, where only the quote itself is doubled, or without quotes. The machine stops
at the first character that no token can begin or go on with.
-/

namespace RatingServer.Flow

/-- A token of settings text. -/
inductive Token where
  /-- An opening square bracket. -/
  | openList
  /-- A closing square bracket. -/
  | closeList
  /-- An opening brace. -/
  | openRecord
  /-- A closing brace. -/
  | closeRecord
  /-- A comma. -/
  | comma
  /-- A colon after a key, and its place. -/
  | colon (place : Place)
  /-- A text, whether it stands between quotes, and the place where it begins. -/
  | text (s : String) (quoted : Bool) (start : Place)
  /-- A tab before all else in its line. -/
  | indent
  /-- The place at which the text stops being settings text. -/
  | broken
  deriving DecidableEq

/-- What the machine has read of the current token. Texts begin at `start`. -/
inductive Scan where
  /-- Between tokens. `fresh` says that nothing but blanks came before in the line. -/
  | gap (fresh : Bool)
  /-- Inside a comment. -/
  | comment
  /-- After a dash at which a word may begin. -/
  | dash (start : Place)
  /-- Inside a word. -/
  | word (start : Place) (read : Folded)
  /-- After a colon that may belong to a word. -/
  | wordColon (start : Place) (read : Folded) (colon : Place)
  /-- Between single quotes. -/
  | single (start : Place) (read : Folded)
  /-- After a single quote that may be doubled. -/
  | singleQuote (start : Place) (read : Folded)
  /-- Between double quotes. -/
  | double (start : Place) (read : Folded)
  /-- After a backslash between double quotes. -/
  | escape (start : Place) (read : Folded)
  /-- Among the hexadecimal digits of a character, with the number of digits still
  to come and the number that those before them denote. -/
  | code (start : Place) (read : Folded) (left : Nat) (value : Nat)
  /-- Past the place at which the text is broken. -/
  | stopped

/-- The text is broken here. -/
def broken : List Token × Scan := ([.broken], .stopped)

/-- The characters at which no word can begin, apart from those that are tokens,
quotes, or the start of a comment. -/
def reservedMarks : List Char := "?&*!|>%@\x60".toList

/-- The tokens that a character between tokens completes, and what it begins. -/
def begin (fresh : Bool) (p : Place) (c : Char) : List Token × Scan :=
  if isBreak c then ([], .gap true)
  else match c with
    | ' ' => ([], .gap fresh)
    | '\t' => (if fresh then [.indent] else [], .gap fresh)
    | '#' => ([], .comment)
    | '[' => ([.openList], .gap false)
    | ']' => ([.closeList], .gap false)
    | '\x7b' => ([.openRecord], .gap false)
    | '\x7d' => ([.closeRecord], .gap false)
    | ',' => ([.comma], .gap false)
    | ':' => ([.colon p], .gap false)
    | '"' => ([], .double p {})
    | '\x27' => ([], .single p {})
    | '-' => ([], .dash p)
    | c => if reservedMarks.contains c then broken else ([], .word p (Folded.push {} c))

/-- The characters that end a word wherever they stand. -/
def endsWord (c : Char) : Bool :=
  c == ',' || c == '[' || c == ']' || c == '\x7b' || c == '\x7d'

/-- What comes after a token that the next character has shown to be complete. -/
def complete (t : List Token) (p : Place) (c : Char) : List Token × Scan :=
  (t ++ (begin false p c).1, (begin false p c).2)

/-- How a word goes on with a character. A colon in it belongs to it unless a blank
follows, and a comment begins only after a blank. -/
def goOn (start : Place) (read : Folded) (p : Place) (c : Char) : List Token × Scan :=
  if isSpace c || isBreak c then ([], .word start (read.pause c))
  else if c == ':' then ([], .wordColon start read p)
  else if endsWord c || (c == '#' && read.gap ≠ .blanks []) then
    complete [.text read.word false start] p c
  else ([], .word start (read.push c))

/-- The character that a short escape stands for. -/
def shortEscape? : Char → Option Char
  | '0' => some '\x00'
  | 'a' => some '\x07'
  | 'b' => some '\x08'
  | 't' | '\t' => some '\t'
  | 'n' => some '\n'
  | 'v' => some '\x0b'
  | 'f' => some '\x0c'
  | 'r' => some '\r'
  | 'e' => some '\x1b'
  | ' ' => some ' '
  | '"' => some '"'
  | '/' => some '/'
  | '\\' => some '\\'
  | 'N' => some '\u0085'
  | '_' => some '\u00a0'
  | 'L' => some '\u2028'
  | 'P' => some '\u2029'
  | _ => none

/-- The number of digits that a character by number has after its mark. -/
def codeLength? : Char → Option Nat
  | 'x' => some 2
  | 'u' => some 4
  | 'U' => some 8
  | _ => none

/-- The character of a number, if there is one. -/
def character? (n : Nat) : Option Char := if n.isValidChar then some (Char.ofNat n) else none

/-- One step of the machine at a place: the tokens that a character completes, and
what has been read after it. -/
def Scan.step (s : Scan) (p : Place) (c : Char) : List Token × Scan :=
  match s with
  | .gap fresh => begin fresh p c
  | .comment => if isBreak c then ([], .gap true) else ([], .comment)
  | .dash start =>
    if isSpace c || isBreak c then broken else goOn start (Folded.push {} '-') p c
  | .word start read => goOn start read p c
  | .wordColon start read colon =>
    if isSpace c || isBreak c then complete [.text read.word false start, .colon colon] p c
    else if endsWord c || c == '?' then broken
    else goOn start (read.push ':') p c
  | .single start read =>
    if c == '\x27' then ([], .singleQuote start read)
    else if isSpace c || isBreak c then ([], .single start (read.pause c))
    else ([], .single start (read.push c))
  | .singleQuote start read =>
    if c == '\x27' then ([], .single start (read.push c))
    else complete [.text read.text true start] p c
  | .double start read =>
    if c == '"' then ([.text read.text true start], .gap false)
    else if c == '\\' then ([], .escape start read)
    else if isSpace c || isBreak c then ([], .double start (read.pause c))
    else ([], .double start (read.push c))
  | .escape start read =>
    if isBreak c then ([], .double start read.join)
    else match codeLength? c, shortEscape? c with
      | some n, _ => ([], .code start read n 0)
      | none, some d => ([], .double start (read.push d))
      | none, none => broken
  | .code start read left value =>
    match Text.hexValue? c with
    | none => broken
    | some d =>
      if left ≤ 1 then
        match character? (16 * value + d) with
        | some c => ([], .double start (read.push c))
        | none => broken
      else ([], .code start read (left - 1) (16 * value + d))
  | .stopped => ([], .stopped)

/-- The tokens that the end of the text completes. No text ends there that belongs
to a document. -/
def Scan.finish : Scan → List Token
  | .gap _ | .comment | .stopped => []
  | _ => [.broken]

end RatingServer.Flow
