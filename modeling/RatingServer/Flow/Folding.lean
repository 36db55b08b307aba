/-!
# Lines

The characters of a settings text, its lines, and how a text that runs over several
lines is folded into one. Line breaks of several kinds are read as one kind. Where a
text goes on in the next line, one break between the lines stands for a space, and
of several breaks the first one is dropped; blanks around breaks do not count.
-/

namespace RatingServer.Flow

/-- The characters that a settings text may hold. -/
def isAllowed (c : Char) : Bool :=
  let n := c.toNat
  n == 0x09 || n == 0x0A || n == 0x0D || (0x20 ≤ n && n ≤ 0x7E) || n == 0x85 ||
    (0xA0 ≤ n && n ≤ 0xFFFD) || 0x10000 ≤ n

/-- The characters that end a line. -/
def isBreak (c : Char) : Bool := c == '\n' || c == '\u2028' || c == '\u2029'

/-- The characters that are blanks within a line. -/
def isSpace (c : Char) : Bool := c == ' ' || c == '\t'

/-- A text in which every line break is of one kind, apart from the separators of
lines and paragraphs. -/
def unifyBreaks : List Char → List Char
  | '\r' :: '\n' :: cs => '\n' :: unifyBreaks cs
  | '\r' :: cs => '\n' :: unifyBreaks cs
  | '\u0085' :: cs => '\n' :: unifyBreaks cs
  | c :: cs => c :: unifyBreaks cs
  | [] => []

/-- Whether a line begins with the mark that opens or ends a document. -/
def isDocumentMark : List Char → Bool
  | '-' :: '-' :: '-' :: cs | '.' :: '.' :: '.' :: cs =>
    cs.head?.all fun c => isSpace c || isBreak c
  | _ => false

/-- Whether one of the lines holds a document mark. `fresh` says that a line begins
here. -/
def hasDocumentMark (fresh : Bool) : List Char → Bool
  | [] => false
  | c :: cs => (fresh && isDocumentMark (c :: cs)) || hasDocumentMark (isBreak c) cs

/-- A place in a text. -/
structure Place where
  /-- The number of line breaks before it. -/
  line : Nat := 0
  /-- The number of characters before it. -/
  index : Nat := 0
  deriving DecidableEq, Repr

/-- The place after a character. -/
def Place.after (p : Place) (c : Char) : Place :=
  ⟨if isBreak c then p.line + 1 else p.line, p.index + 1⟩

/-- Whether a key that begins at a place can have its colon at another. Both must be in one
line, and not too far from each other. -/
def Place.isKeyOf (key colon : Place) : Bool :=
  key.line = colon.line && colon.index ≤ key.index + 1024

/-- Blanks and line breaks inside a text. -/
inductive Gap where
  /-- Blanks within a line, last blank first. -/
  | blanks (cs : List Char)
  /-- Line breaks: the first one, unless it was escaped, and those after it, last
  break first. -/
  | lines (first : Option Char) (more : List Char)
  deriving DecidableEq

/-- Adds a blank or a line break. -/
def Gap.add (g : Gap) (c : Char) : Gap :=
  match g with
  | .blanks cs => if isBreak c then .lines (some c) [] else .blanks (c :: cs)
  | .lines first more => if isBreak c then .lines first (c :: more) else g

/-- What stands for the gap, last character first. -/
def Gap.fold : Gap → List Char
  | .blanks cs => cs
  | .lines (some '\n') [] => [' ']
  | .lines (some '\n') more => more
  | .lines first more => more ++ first.toList

/-- A text that is being folded. -/
structure Folded where
  /-- What comes before the gap, last character first. -/
  chars : List Char := []
  /-- The gap at the end. -/
  gap : Gap := .blanks []
  deriving DecidableEq

/-- The text goes on with a character. -/
def Folded.push (f : Folded) (c : Char) : Folded := ⟨c :: (f.gap.fold ++ f.chars), .blanks []⟩

/-- The text goes on with a blank or a line break. -/
def Folded.pause (f : Folded) (c : Char) : Folded := { f with gap := f.gap.add c }

/-- The text goes on in the next line as if no line ended here. -/
def Folded.join (f : Folded) : Folded := ⟨f.gap.fold ++ f.chars, .lines none []⟩

/-- The text, with the gap at its end. -/
def Folded.text (f : Folded) : String := String.ofList (f.gap.fold ++ f.chars).reverse

/-- The text without the gap at its end. -/
def Folded.word (f : Folded) : String := String.ofList f.chars.reverse

end RatingServer.Flow
