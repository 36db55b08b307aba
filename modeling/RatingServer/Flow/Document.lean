import RatingServer.Flow.Token
import RatingServer.Flow.Word

/-!
# Settings documents

The document of a settings text: one record in the flow style of YAML, of which data
texts are a part. A value that is left out is null, a comma may stand before the end
of a list or record, and an item of a list may be a single member. Anchors, tags and
document marks have no place in settings.
-/

namespace RatingServer.Flow

open Json (Document)

/-- A list or record that is still open, with what has been read of it, last part
first. -/
inductive Collection where
  /-- A list. -/
  | items (read : List Document)
  /-- A record. -/
  | members (read : List (Option String × Document))

/-- What may come next in the innermost list or record. -/
inductive Expected where
  /-- An item, a key, or the end. -/
  | entry
  /-- What follows a text that may be a key: a colon, a comma, or the end. -/
  | colon (text : String) (quoted : Bool) (start : Place)
  /-- The value of a key, a comma, or the end. -/
  | value (key : String)
  /-- A comma or the end. -/
  | more

/-- The state of a reader of tokens. -/
inductive Reading where
  /-- Before the document. -/
  | before
  /-- Inside the document: the innermost list or record and what it expects, and
  those around it with the keys that wait for a value. -/
  | inside (inner : Collection) (expected : Expected) (outer : List (Collection × Option String))
  /-- After the document. -/
  | after (document : Document)
  /-- Past a fault. -/
  | failed

/-- Adds a value, under a key if there is one. A member in a list is a record of its
own. -/
def Collection.add (c : Collection) (key : Option String) (d : Document) : Collection :=
  match c, key with
  | .items read, none => .items (d :: read)
  | .items read, some k => .items (.obj [(some k, d)] true :: read)
  | .members read, k => .members ((k, d) :: read)

/-- The document of a list or record at its end. -/
def Collection.document : Collection → Document
  | .items read => .arr read.reverse true
  | .members read => .obj read.reverse true

/-- Whether the token ends the list or record. -/
def Collection.isClosedBy : Collection → Token → Bool
  | .items _, .closeList => true
  | .members _, .closeRecord => true
  | _, _ => false

/-- What a text stands for. -/
def textValue (s : String) (quoted : Bool) : Document :=
  if quoted then .str (some s) else wordValue s

/-- Adds a text that turned out to be no key with a colon: an item of a list, or a key
whose value is left out. -/
def Collection.addText (c : Collection) (s : String) (quoted : Bool) : Collection :=
  match c with
  | .items _ => c.add none (textValue s quoted)
  | .members _ => c.add (some s) .null

/-- Goes on after a whole list or record. -/
def deliver (d : Document) : List (Collection × Option String) → Reading
  | [] => .after d
  | (c, key) :: outer => .inside (c.add key d) .more outer

/-- Takes a comma or the end of the list or record. -/
def takeEnd (c : Collection) (outer : List (Collection × Option String)) (t : Token) : Reading :=
  if c.isClosedBy t then deliver c.document outer
  else match t with
    | .comma => .inside c .entry outer
    | _ => .failed

/-- Takes a token inside the document. A list or record cannot be a key. -/
def takeInside (c : Collection) (expected : Expected)
    (outer : List (Collection × Option String)) (t : Token) : Reading :=
  match expected, t with
  | _, .indent => .inside c expected outer
  | .entry, .text s quoted start => .inside c (.colon s quoted start) outer
  | .entry, .openList =>
    match c with
    | .items _ => .inside (.items []) .entry ((c, none) :: outer)
    | .members _ => .failed
  | .entry, .openRecord =>
    match c with
    | .items _ => .inside (.members []) .entry ((c, none) :: outer)
    | .members _ => .failed
  | .entry, t => if c.isClosedBy t then deliver c.document outer else .failed
  | .colon s _ start, .colon place =>
    if start.isKeyOf place then .inside c (.value s) outer else .failed
  | .colon s quoted _, t => takeEnd (c.addText s quoted) outer t
  | .value key, .text s quoted _ => .inside (c.add (some key) (textValue s quoted)) .more outer
  | .value key, .openList => .inside (.items []) .entry ((c, some key) :: outer)
  | .value key, .openRecord => .inside (.members []) .entry ((c, some key) :: outer)
  | .value key, t => takeEnd (c.add (some key) .null) outer t
  | .more, t => takeEnd c outer t

/-- Takes a token. -/
def Reading.step (r : Reading) (t : Token) : Reading :=
  match r, t with
  | .before, .openRecord => .inside (.members []) .entry []
  | .inside c expected outer, t => takeInside c expected outer t
  | _, _ => .failed

/-- The document read when the text ends. A text without tokens is an empty record. -/
def Reading.finish : Reading → Option Document
  | .before => some (.obj [] true)
  | .after d => some d
  | _ => none

/-- A reader of characters. -/
structure Reader where
  /-- The place of the next character. -/
  place : Place := {}
  /-- What has been read of the current token. -/
  scan : Scan := .gap true
  /-- What has been read of the document. -/
  reading : Reading := .before

/-- Takes a character. -/
def Reader.step (r : Reader) (c : Char) : Reader :=
  let (tokens, scan) := r.scan.step r.place c
  ⟨r.place.after c, scan, tokens.foldl Reading.step r.reading⟩

/-- The document read when the text ends. -/
def Reader.finish (r : Reader) : Option Document :=
  (r.scan.finish.foldl Reading.step r.reading).finish

/-- The greatest number of lists and records that may be open at once. -/
def maxDepth : Nat := 128

/-- The document of a settings text. A byte order mark may stand before it. -/
def parse? (cs : List Char) : Option Document :=
  if cs.all isAllowed then
    let cs := unifyBreaks (if cs.head? = some '\uFEFF' then cs.tail else cs)
    if hasDocumentMark true cs then none
    else ((cs.foldl Reader.step {}).finish).filter (·.isKept maxDepth)
  else none

end RatingServer.Flow
