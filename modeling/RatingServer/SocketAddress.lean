import RatingServer.Text.Basic

/-!
# Socket addresses

The address of one end of a stream: a host of either family and a port. Addresses of
128 bits are written as eight groups of hexadecimal digits, of which the longest run
of zeros is left out; they stand in square brackets before the port.
-/

namespace RatingServer

/-- The address of a host. -/
inductive HostAddress where
  /-- An address of 32 bits. -/
  | short (bits : UInt32)
  /-- An address of 128 bits, and the network that it belongs to; zero if it is not
  said. -/
  | long (bits : BitVec 128) (scope : UInt32)
  deriving DecidableEq, Repr

/-- The address of one end of a stream. -/
structure SocketAddress where
  /-- The host. -/
  host : HostAddress
  /-- The port. -/
  port : UInt16
  deriving DecidableEq, Repr

namespace HostAddress

/-- The parts of a text between separators. -/
def pieces (separator : Char) : List Char → List (List Char)
  | [] => [[]]
  | c :: cs =>
    match decide (c = separator), pieces separator cs with
    | true, ps => [] :: ps
    | false, [] => [[c]]
    | false, p :: ps => (c :: p) :: ps

/-- The number that some groups denote, first group first. -/
def ofGroups (size : Nat) (groups : List Nat) : Nat := groups.foldl (fun n g => size * n + g) 0

/-- The groups of a number, first group first. -/
def groups (size : Nat) : (count : Nat) → Nat → List Nat
  | 0, _ => []
  | count + 1, n => groups size count (n / size) ++ [n % size]

/-- A byte in decimal, without leading zeros. -/
def byte? (cs : List Char) : Option Nat :=
  if cs.head? = some '0' && cs ≠ ['0'] then none
  else if 3 < cs.length then none
  else (Text.digits? cs).filter (· ≤ 255)

/-- The number of an address of 32 bits. -/
def shortBits? (cs : List Char) : Option Nat :=
  match pieces '.' cs with
  | [a, b, c, d] => do
    let bytes ← [a, b, c, d].mapM byte?
    return ofGroups 256 bytes
  | _ => none

/-- A group of one to four hexadecimal digits. -/
def group? (cs : List Char) : Option Nat :=
  if cs.isEmpty || 4 < cs.length then none
  else (cs.mapM Text.hexValue?).map (ofGroups 16)

/-- The groups between colons. The last two may be written as an address of 32
bits. -/
def groupsOf? : List (List Char) → Option (List Nat)
  | [] => some []
  | [p] => ((shortBits? p).map (groups 0x10000 2)) <|> ((group? p).map fun g => [g])
  | p :: ps => do
    let g ← group? p
    let gs ← groupsOf? ps
    return g :: gs

/-- The texts before and after the first two colons in a row. -/
def splitGap? : List Char → Option (List Char × List Char)
  | ':' :: ':' :: cs => some ([], cs)
  | c :: cs => (splitGap? cs).map fun (before, after) => (c :: before, after)
  | [] => none

/-- The groups of a part of an address, which may be empty. -/
def part? (cs : List Char) : Option (List Nat) :=
  if cs.isEmpty then some [] else groupsOf? (pieces ':' cs)

/-- The number of an address of 128 bits. Two colons in a row stand for groups of
zeros, at least for one. -/
def longBits? (cs : List Char) : Option (BitVec 128) := do
  let groups ← match splitGap? cs with
    | none => (part? cs).filter (·.length = 8)
    | some (before, after) => do
      let before ← if before.contains '.' then none else part? before
      let after ← part? after
      let left := 8 - (before.length + after.length)
      if left = 0 then none else some (before ++ List.replicate left 0 ++ after)
  return BitVec.ofNat 128 (ofGroups 0x10000 groups)

/-- The text of an address of 32 bits. -/
def shortText (n : Nat) : String := ".".intercalate ((groups 256 4 n).map Nat.repr)

/-- Where the first of the longest runs of zeros begins, and its length. -/
def longestRun (groups : List Nat) : Nat × Nat :=
  (List.range groups.length).foldl
    (fun best i =>
      let length := ((groups.drop i).takeWhile (· = 0)).length
      if best.2 < length then (i, length) else best)
    (0, 0)

/-- The text of some groups. -/
def groupsText (groups : List Nat) : String :=
  ":".intercalate (groups.map fun g => String.ofList (Nat.toDigits 16 g))

/-- The text of an address of 128 bits. One that stands for an address of 32 bits
shows it. -/
def longText (bits : BitVec 128) : String :=
  let n := bits.toNat
  if n / 0x100000000 = 0xffff then "::ffff:" ++ shortText (n % 0x100000000)
  else
    let groups := groups 0x10000 8 n
    let (start, length) := longestRun groups
    if length < 2 then groupsText groups
    else groupsText (groups.take start) ++ "::" ++ groupsText (groups.drop (start + length))

end HostAddress

namespace SocketAddress

/-- The address of a host of 128 bits, with the network after a percent sign. -/
def longHost? (cs : List Char) : Option HostAddress := do
  let bits ← HostAddress.longBits? (cs.takeWhile (· ≠ '%'))
  let scope ← match cs.dropWhile (· ≠ '%') with
    | '%' :: scope => (Text.digits? scope).filter (· < UInt32.size)
    | _ => some 0
  return .long bits (UInt32.ofNat scope)

/-- The host at the start of an address, and what follows it. -/
def splitHost? : List Char → Option (HostAddress × List Char)
  | '[' :: cs =>
    (longHost? (cs.takeWhile (· ≠ ']'))).map fun host =>
      (host, (cs.dropWhile (· ≠ ']')).drop 1)
  | cs =>
    (HostAddress.shortBits? (cs.takeWhile (· ≠ ':'))).map fun bits =>
      (.short (UInt32.ofNat bits), cs.dropWhile (· ≠ ':'))

/-- Reads an address. -/
def ofText? (s : String) : Option SocketAddress := do
  match ← splitHost? s.toList with
  | (host, ':' :: cs) => do
    let port ← (Text.digits? cs).filter (· < UInt16.size)
    return ⟨host, UInt16.ofNat port⟩
  | _ => none

/-- The text of an address. -/
def text (a : SocketAddress) : String :=
  match a.host with
  | .short bits => HostAddress.shortText bits.toNat ++ ":" ++ a.port.toNat.repr
  | .long bits scope =>
    let network := if scope = 0 then "" else "%" ++ scope.toNat.repr
    "[" ++ HostAddress.longText bits ++ network ++ "]:" ++ a.port.toNat.repr

/-- The address from which clients of the same host come. -/
def loopback (port : UInt16) : SocketAddress := ⟨.short 0x7F000001, port⟩

end SocketAddress

end RatingServer
