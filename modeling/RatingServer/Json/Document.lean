import RatingServer.Json.Token
import RatingServer.Json.Basic
import RatingServer.Table

/-!
# Documents

A document is what can be read of a data text. Where the text is broken the
document stops: every list and record that was still open then is marked as not
whole, and a member whose value never came holds a broken value. A reader that
goes through the document from left to right therefore meets a fault of the data
and a break of the text in the order in which they stand.
-/

namespace RatingServer.Json

open Decimal (Number)

/-- What can be read of a data text. -/
inductive Document where
  /-- The null value. -/
  | null
  /-- A truth value. -/
  | bool (b : Bool)
  /-- A number, or nothing if it is too large. -/
  | num (n : Option Number)
  /-- A text, or nothing if it holds half of a surrogate pair. -/
  | str (s : Option String)
  /-- A list, and whether its end was reached. -/
  | arr (items : List Document) (whole : Bool)
  /-- A record, and whether its end was reached. -/
  | obj (members : List (Option String × Document)) (whole : Bool)
  /-- A value at whose place the text is broken. -/
  | broken
  deriving Inhabited

/-- A list or record that is still open, with what has been read of it, last
part first. -/
inductive Frame where
  /-- A list. -/
  | items (read : List Document)
  /-- A record between two members. -/
  | members (read : List (Option String × Document))
  /-- A record after the key of a member. -/
  | member (read : List (Option String × Document)) (key : Option String)

/-- What may come next. -/
inductive Expected where
  /-- A value. -/
  | value
  /-- A value or the end of the list. -/
  | firstItem
  /-- A comma or the end of the list or record. -/
  | more
  /-- A key or the end of the record. -/
  | firstKey
  /-- A key. -/
  | key
  /-- A colon. -/
  | colon

/-- The state of a reader of tokens. -/
inductive Reading where
  /-- Inside the document, with the open lists and records, innermost first. -/
  | inside (expected : Expected) (frames : List Frame)
  /-- After the document. `clean` says that no token came after it. -/
  | after (document : Document) (clean : Bool)

/-- The document of open lists and records that are given up, around a value. -/
def abandon (d : Document) : List Frame → Document
  | [] => d
  | .items read :: fs => abandon (.arr (d :: read).reverse false) fs
  | .members read :: fs => abandon (.obj read.reverse false) fs
  | .member read key :: fs => abandon (.obj ((key, d) :: read).reverse false) fs

/-- The document of open lists and records that are given up after a value. -/
def giveUp : List Frame → Document
  | [] => .broken
  | .items read :: fs => abandon (.arr read.reverse false) fs
  | .members read :: fs => abandon (.obj read.reverse false) fs
  | .member read key :: fs => abandon (.obj ((key, .broken) :: read).reverse false) fs

/-- Goes on after a whole value. -/
def deliver (d : Document) : List Frame → Reading
  | [] => .after d true
  | .items read :: fs => .inside .more (.items (d :: read) :: fs)
  | .members read :: fs => .inside .more (.members read :: fs)
  | .member read key :: fs => .inside .more (.members ((key, d) :: read) :: fs)

/-- Takes the first token of a value. -/
def takeValue (fs : List Frame) : Token → Reading
  | .null => deliver .null fs
  | .bool b => deliver (.bool b) fs
  | .num n => deliver (.num n) fs
  | .str s => deliver (.str s) fs
  | .openList => .inside .firstItem (.items [] :: fs)
  | .openRecord => .inside .firstKey (.members [] :: fs)
  | _ => .after (abandon .broken fs) false

/-- Takes a token. -/
def Reading.step (r : Reading) (t : Token) : Reading :=
  match r with
  | .after d _ => .after d false
  | .inside .value fs => takeValue fs t
  | .inside .firstItem fs =>
    match fs, t with
    | .items read :: fs, .closeList => deliver (.arr read.reverse true) fs
    | fs, t => takeValue fs t
  | .inside .more fs =>
    match fs, t with
    | .items read :: fs, .closeList => deliver (.arr read.reverse true) fs
    | .items read :: fs, .comma => .inside .value (.items read :: fs)
    | .members read :: fs, .closeRecord => deliver (.obj read.reverse true) fs
    | .members read :: fs, .comma => .inside .key (.members read :: fs)
    | fs, _ => .after (giveUp fs) false
  | .inside .firstKey fs =>
    match fs, t with
    | .members read :: fs, .closeRecord => deliver (.obj read.reverse true) fs
    | .members read :: fs, .str key => .inside .colon (.member read key :: fs)
    | fs, _ => .after (giveUp fs) false
  | .inside .key fs =>
    match fs, t with
    | .members read :: fs, .str key => .inside .colon (.member read key :: fs)
    | fs, _ => .after (giveUp fs) false
  | .inside .colon fs =>
    match t with
    | .colon => .inside .value fs
    | _ => .after (giveUp fs) false

/-- The document read when the text ends, and whether nothing follows it. -/
def Reading.finish : Reading → Document × Bool
  | .after d clean => (d, clean)
  | .inside .value fs => (abandon .broken fs, false)
  | .inside _ fs => (giveUp fs, false)

/-- A reader of characters: the machine that splits the text into tokens, and
the reader that takes them. -/
structure Reader where
  /-- What has been read of the current token. -/
  scan : Scan := .gap
  /-- What has been read of the document. -/
  reading : Reading := .inside .value []

/-- Takes a character. -/
def Reader.step (r : Reader) (c : Char) : Reader :=
  ⟨(r.scan.step c).2, (r.scan.step c).1.foldl Reading.step r.reading⟩

/-- Takes the characters of a text. -/
def Reader.feed (r : Reader) (cs : List Char) : Reader := cs.foldl Reader.step r

/-- The document read when the text ends, and whether nothing follows it. -/
def Reader.finish (r : Reader) : Document × Bool :=
  (r.scan.finish.foldl Reading.step r.reading).finish

/-- The document at the start of a text, and whether nothing but white space
follows it. -/
def Document.parse (cs : List Char) : Document × Bool := (Reader.feed {} cs).finish

mutual

/-- The value was read to its end. What texts and numbers denote does not
matter. -/
def Document.isWhole : Document → Bool
  | .null | .bool _ | .num _ | .str _ => true
  | .arr items whole => whole && itemsWhole items
  | .obj members whole => whole && membersWhole members
  | .broken => false

/-- Every item was read to its end. -/
def itemsWhole : List Document → Bool
  | [] => true
  | d :: ds => d.isWhole && itemsWhole ds

/-- Every value of a member was read to its end. -/
def membersWhole : List (Option String × Document) → Bool
  | [] => true
  | (_, d) :: ms => d.isWhole && membersWhole ms

end

mutual

/-- The whole value can be kept for later, within a number of levels. It must
have been read to its end, and every text and number in it must denote
something. -/
def Document.isKept (depth : Nat) : Document → Bool
  | .null | .bool _ => true
  | .num n => n.isSome
  | .str s => s.isSome
  | .arr items whole => depth ≠ 0 && whole && itemsKept (depth - 1) items
  | .obj members whole => depth ≠ 0 && whole && membersKept (depth - 1) members
  | .broken => false

/-- Every item can be kept. -/
def itemsKept (depth : Nat) : List Document → Bool
  | [] => true
  | d :: ds => d.isKept depth && itemsKept depth ds

/-- Every member can be kept. -/
def membersKept (depth : Nat) : List (Option String × Document) → Bool
  | [] => true
  | (k, d) :: ms => k.isSome && d.isKept depth && membersKept depth ms

end

/-- Of members with one name, the last, in the order of the names. -/
def lastOfEach (members : List (Option String × Document)) : List (Option String × Document) :=
  let named := members.filterMap fun (k, d) => k.map fun k => (k, d)
  (Table.ofList named).entries.map fun (k, d) => (some k, d)

mutual

/-- The document in which every record has of members with one name only the last,
in the order of the names. -/
def Document.lastMembers : Document → Document
  | .arr items whole => .arr (itemsLast items) whole
  | .obj members whole => .obj (lastOfEach (membersLast members)) whole
  | d => d

/-- The items with the last members of their records. -/
def itemsLast : List Document → List Document
  | [] => []
  | d :: ds => d.lastMembers :: itemsLast ds

/-- The members with the last members of their records. -/
def membersLast : List (Option String × Document) → List (Option String × Document)
  | [] => []
  | (k, d) :: ms => (k, d.lastMembers) :: membersLast ms

end

mutual

/-- The document of a data value. -/
def toDocument : Json → Document
  | .null => .null
  | .bool b => .bool b
  | .num n => .num (some n)
  | .str s => .str (some s)
  | .arr items => .arr (toDocuments items) true
  | .obj members => .obj (toMembers members) true

/-- The documents of some data values. -/
def toDocuments : List Json → List Document
  | [] => []
  | j :: js => j.toDocument :: toDocuments js

/-- The members of a document for those of a record. -/
def toMembers : List (String × Json) → List (Option String × Document)
  | [] => []
  | (k, j) :: ms => (some k, j.toDocument) :: toMembers ms

end

mutual

/-- The data value that a document holds; null stands where it holds none. -/
def Document.toJson : Document → Json
  | .null | .broken | .num none | .str none => .null
  | .bool b => .bool b
  | .num (some n) => .num n
  | .str (some s) => .str s
  | .arr items _ => .arr (itemsToJson items)
  | .obj members _ => .obj (membersToJson members)

/-- The data values that the items hold. -/
def itemsToJson : List Document → List Json
  | [] => []
  | d :: ds => d.toJson :: itemsToJson ds

/-- The data values that the members hold. -/
def membersToJson : List (Option String × Document) → List (String × Json)
  | [] => []
  | (k, d) :: ms => (k.getD "", d.toJson) :: membersToJson ms

end

/-- The value of a member of a record; null if there is none. -/
def Document.member (d : Document) (name : String) : Document :=
  match d with
  | .obj members _ => (members.lookup (some name)).getD .null
  | _ => .null

/-- The items of a list. -/
def Document.items : Document → List Document
  | .arr items _ => items
  | _ => []

/-- The text that a document holds, if it is one. -/
def Document.text? : Document → Option String
  | .str s => s
  | _ => none

/-- The integer that a document holds, if it is one. -/
def Document.int? : Document → Option Int
  | .num (some (.integer n)) => some n
  | _ => none

/-- The truth value that a document holds, if it is one. -/
def Document.bool? : Document → Option Bool
  | .bool b => some b
  | _ => none

end RatingServer.Json
