/-!
# Command lines

A command line is read word by word. An option stands after two dashes; its value
is attached with an equals sign or is the next word. A value that stands in a word
of its own is looked at only when the next known option comes or the line ends, so
that a word which belongs nowhere is noticed before a value that does not read.
-/

namespace RatingServer.CommandLine

/-- Why a command line is not carried out. -/
inductive Usage where
  /-- A word that belongs nowhere. -/
  | unknownArgument
  /-- A value that does not read as its type. -/
  | badValue
  /-- An option without its value. -/
  | missingValue
  /-- An option given twice. -/
  | repeated
  /-- A value for an option that takes none. -/
  | needlessValue
  /-- Something that must be given is missing. -/
  | missingArgument
  /-- A command that is not known. -/
  | unknownCommand
  /-- The help text is asked for: that of a command, or of the whole program. -/
  | help (command : Option String)
  /-- The version is asked for. -/
  | version
  deriving DecidableEq, Repr

/-- The code with which a program ends that does not carry out its command line. -/
def Usage.exitCode : Usage → Nat
  | help _ | version => 0
  | _ => 2

/-- Takes a word into what a command line says. -/
abbrev TakeWord (α : Type) := String → α → Except Usage α

/-- What an option does. -/
inductive Effect (α : Type) where
  /-- It takes no value. -/
  | flag (set : α → α)
  /-- It takes a value. -/
  | value (take : TakeWord α)
  /-- It ends the reading of the line. The letter stands for it after one dash. -/
  | halt (letter : Char) (why : Usage)

/-- What a command line may hold. -/
structure Grammar (α : Type) where
  /-- The options by name. -/
  options : List (String × Effect α)
  /-- The words that stand for themselves, in order. -/
  words : List (TakeWord α) := []
  /-- The commands; the reading ends before a command. -/
  commands : List String := []

/-- How a word of a command line is written. -/
inductive Word where
  /-- After this word no other is an option. -/
  | lastOption
  /-- An option by name, with an attached value. -/
  | option (name : String) (attached : Option String)
  /-- An option by letter. -/
  | letter (c : Char)
  /-- A word that stands for itself. -/
  | plain
  deriving DecidableEq, Repr

/-- The text after an equals sign. -/
def attached? : List Char → Option String
  | '=' :: cs => some (String.ofList cs)
  | _ => none

/-- How a word is written. -/
def Word.of (s : String) : Word :=
  match s.toList with
  | ['-', '-'] => .lastOption
  | '-' :: '-' :: cs =>
    .option (String.ofList (cs.takeWhile (· != '='))) (attached? (cs.dropWhile (· != '=')))
  | '-' :: c :: _ => .letter c
  | _ => .plain

/-- A value that has not been taken yet. -/
structure Pending (α : Type) where
  /-- The option that the value is for; none for a word that stands for itself. -/
  name : Option String
  /-- What takes the value. -/
  take : TakeWord α
  /-- The value, if it has come. -/
  value : Option String

/-- What has been read of a command line. -/
structure Reading (α : Type) where
  /-- What the line says so far. -/
  said : α
  /-- The options that were given. -/
  given : List String := []
  /-- The value that has not been taken yet. -/
  pending : Option (Pending α) := none
  /-- What takes the words to come. -/
  words : List (TakeWord α)
  /-- Whether no more option can come. -/
  closed : Bool := false

namespace Reading

variable {α : Type}

/-- Notes that an option is given. -/
def give (r : Reading α) : Option String → Except Usage (Reading α)
  | none => .ok r
  | some name =>
    if name ∈ r.given then .error .repeated else .ok { r with given := name :: r.given }

/-- Takes the value of an option. -/
def takeValue (r : Reading α) (name : Option String) (take : TakeWord α) (value : String) :
    Except Usage (Reading α) := do
  let r ← r.give name
  return { r with said := ← take value r.said }

/-- Takes the value that has not been taken yet. -/
def settle (r : Reading α) : Except Usage (Reading α) :=
  match r.pending with
  | none => .ok r
  | some ⟨_, _, none⟩ => .error .missingValue
  | some ⟨name, take, some value⟩ => { r with pending := none }.takeValue name take value

/-- Whether an option waits for its value. -/
def awaitsValue (r : Reading α) : Bool :=
  match r.pending with
  | some ⟨_, _, none⟩ => true
  | _ => false

/-- Reads a word that stands for itself. -/
def plainWord (r : Reading α) (word : String) : Except Usage (Reading α) :=
  match r.words with
  | [] => .error .unknownArgument
  | take :: words => do
    let r ← r.settle
    return { r with pending := some ⟨none, take, some word⟩, words }

/-- Reads an option. -/
def option (r : Reading α) (name : String) (effect : Effect α) (attached : Option String) :
    Except Usage (Reading α) :=
  match effect, attached with
  | .flag _, some _ | .halt _ _, some _ => .error .needlessValue
  | .flag set, none => do
    let r ← (← r.settle).give (some name)
    return { r with said := set r.said }
  | .halt _ why, none => do
    let _ ← r.settle
    throw why
  | .value take, none => do
    let r ← r.settle
    return { r with pending := some ⟨some name, take, none⟩ }
  | .value take, some value => do
    let r ← r.settle
    r.takeValue (some name) take value

/-- What a line says that ends here. -/
def finish (r : Reading α) : Except Usage α := do
  let r ← r.settle
  if r.words.isEmpty then return r.said else throw .missingArgument

end Reading

namespace Grammar

variable {α : Type}

/-- Why an option by letter ends the reading. -/
def halting? (g : Grammar α) (c : Char) : Option Usage :=
  g.options.findSome? fun
    | (_, .halt letter why) => if letter = c then some why else none
    | _ => none

/-- Reads a word. -/
def readWord (g : Grammar α) (r : Reading α) (word : String) : Except Usage (Reading α) :=
  if r.closed then r.plainWord word
  else
    match Word.of word with
    | .lastOption => .ok { r with closed := true }
    | .option name attached =>
      match g.options.lookup name with
      | none => .error .unknownArgument
      | some effect => r.option name effect attached
    | .letter c =>
      match g.halting? c with
      | none => .error .unknownArgument
      | some why => do
        let _ ← r.settle
        throw why
    | .plain =>
      match r.pending with
      | some ⟨name, take, none⟩ => .ok { r with pending := some ⟨name, take, some word⟩ }
      | _ => r.plainWord word

/-- Reads words to the end of the line or to a command, and answers the words
from there on. -/
def readWords (g : Grammar α) (r : Reading α) : List String →
    Except Usage (Reading α × List String)
  | [] => .ok (r, [])
  | word :: words =>
    if !r.closed && !r.awaitsValue && word ∈ g.commands then .ok (r, word :: words)
    else do g.readWords (← g.readWord r word) words

/-- The reading of a line that says something already. -/
def start (g : Grammar α) (said : α) : Reading α := { said, words := g.words }

/-- What a line without commands says. -/
def read (g : Grammar α) (said : α) (words : List String) : Except Usage α := do
  let (r, _) ← g.readWords (g.start said) words
  r.finish

end Grammar

/-- Takes a value that is any text. -/
def text (set : String → α → α) : TakeWord α := fun word a => .ok (set word a)

/-- Takes a value that is a text but not the empty one. -/
def path (set : String → α → α) : TakeWord α := fun word a =>
  if word = "" then .error .missingValue else .ok (set word a)

/-- Takes a value that some reader reads. -/
def reading (read : List Char → Option β) (set : β → α → α) : TakeWord α := fun word a =>
  match read word.toList with
  | some b => .ok (set b a)
  | none => .error .badValue

end RatingServer.CommandLine
