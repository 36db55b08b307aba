import RatingServer.Wire.Format

/-!
# Choice formats

A choice is one of several named variants, with or without a payload. A variant
without payload is written as its name, one with a payload as a record with one
member; as bytes a variant is its place in the list of variants, then the
payload.
-/

namespace RatingServer.Wire

open Json (Document)

/-- A variant of a choice. -/
structure Variant (α : Type) where
  /-- The name. -/
  name : String
  /-- The value of the bare name; nothing if a payload must come with it. -/
  bare : Option α
  /-- Reads the value from the payload. -/
  ofPayload : ReadDocument α
  /-- Reads the value from the bytes of the payload. -/
  getPayload : ReadBytes α

namespace Variant

variable {α β : Type}

/-- Reads the payload of a variant that has none: it may be given as null, and
when the document was kept also as an empty record. -/
def noPayload (a : α) : ReadDocument α
  | _, .null => .ok a
  | .kept, .obj [] true => .ok a
  | _, d => .error (typeFault d)

/-- A variant without payload. -/
def bareName (name : String) (a : α) : Variant α :=
  ⟨name, some a, noPayload a, fun bs => some (a, bs)⟩

/-- A variant with a payload. -/
def payload (name : String) (f : Format β) (make : β → α) : Variant α :=
  ⟨name, none, fun src d => (f.ofDocument src d).map make,
    fun bs => (f.get bs).map fun r => (make r.1, r.2)⟩

end Variant

/-- A variant that was chosen: its place, and what is written of its payload. -/
structure Chosen where
  /-- The place of the variant. -/
  place : Nat
  /-- The payload as a data value and as bytes. -/
  payload : Option (Json × Bytes)

/-- A chosen variant without payload. -/
def Chosen.bareName (place : Nat) : Chosen := ⟨place, none⟩

/-- A chosen variant with a payload. -/
def Chosen.of (place : Nat) (f : Format β) (b : β) : Chosen :=
  ⟨place, some (f.toJson b, f.put b)⟩

namespace Format

variable {α : Type}

/-- Reads a choice. -/
def readChoice (variants : List (Variant α)) : ReadDocument α
  | _, .str (some name) =>
    match variants.find? (·.name = name) with
    | none => .error (.unknownVariant name)
    | some v =>
      match v.bare with
      | some a => .ok a
      | none => .error .invalidType
  | src, .obj members whole =>
    match src, members with
    | _, [] => .error src.notOneMember
    | .stream, (some name, d) :: ms =>
      match variants.find? (·.name = name) with
      | none => .error (.unknownVariant name)
      | some v => do
        let a ← v.ofPayload src d
        if ms.isEmpty && whole then return a else .error .malformed
    | _, [(some name, d)] =>
      match variants.find? (·.name = name) with
      | none => .error (.unknownVariant name)
      | some v => v.ofPayload src d
    | .stream, (none, _) :: _ => .error .malformed
    | _, [(none, _)] => .error .malformed
    | _, _ => .error src.notOneMember
  | _, .broken | _, .str none | _, .num none => .error .malformed
  | src, _ => .error src.notAChoice

/-- The format of a choice. -/
def choice (variants : List (Variant α)) (chosen : α → Chosen) : Format α where
  toJson a :=
    let name := (variants[(chosen a).place]?).elim "" Variant.name
    match (chosen a).payload with
    | none => .str name
    | some (j, _) => .obj [(name, j)]
  ofDocument := readChoice variants
  put a := putCount (chosen a).place ++ (chosen a).payload.elim [] (·.2)
  get bs := do
    let (place, bs) ← getCount 4 bs
    let v ← variants[place]?
    v.getPayload bs

/-- The format of a choice of which no variant has a payload. -/
def names [DecidableEq α] (all : List α) (name : α → String) : Format α :=
  choice (all.map fun a => .bareName (name a) a) fun a => .bareName (all.idxOf a)

end Format

end RatingServer.Wire
