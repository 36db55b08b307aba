import RatingServer.Wire.Format

/-!
# Record formats

A record has named fields in a fixed order. It is written with its fields in that
order and read with its members in any order; members of other names do not
matter. It can also be read from the list of its fields. The first fault in the
order of the text counts; a field that is missing is noticed at the end.
-/

namespace RatingServer.Wire

open Json (Document)

/-- A field of a record. -/
structure Field (α : Type) where
  /-- The name of the member. -/
  name : String
  /-- The format of the value. -/
  format : Format α
  /-- The value if the member is missing; nothing if it must be there. -/
  missing : Option α := none
  /-- The value if a list of fields ends before it; nothing if it must be
  there. -/
  cut : Option α := none
  /-- Whether the member is left out in writing. -/
  omitted : α → Bool := fun _ => false

/-- A field that must be there. -/
def Field.required (name : String) (format : Format α) : Field α := { name, format }

/-- A field whose value may be absent: null, or no member at all. -/
def Field.optional (name : String) (format : Format α) : Field (Option α) :=
  { name, format := format.option, missing := some none }

/-- A field whose value may be absent, and that is then left out in writing. -/
def Field.omittable (name : String) (format : Format α) : Field (Option α) :=
  { name, format := format.option, missing := some none, omitted := Option.isNone }

/-- A field with a value of its own for when it is not there. -/
def Field.defaulted (name : String) (format : Format α) (value : α) : Field α :=
  { name, format, missing := some value, cut := some value }

/-- The fields of a record, in order. -/
structure Fields (α : Type) where
  /-- The names of the members. -/
  names : List String
  /-- The members that are written. -/
  members : α → List (String × Json)
  /-- Whether the value of the member of a name can be read. -/
  check : String → ReadDocument Unit
  /-- The record of some members whose values can be read. -/
  build : Source → List (Option String × Document) → Except DecodeFault α
  /-- Reads the fields from the items of a list, and answers the items after
  them. -/
  take : Source → (whole : Bool) → List Document → Except DecodeFault (α × List Document)
  /-- The bytes of the fields. -/
  put : α → Bytes
  /-- Reads the bytes of the fields. -/
  get : ReadBytes α

namespace Fields

variable {α β : Type}

/-- No field. -/
def none : Fields Unit where
  names := []
  members _ := []
  check _ _ _ := .ok ()
  build _ _ := .ok ()
  take _ _ items := .ok ((), items)
  put _ := []
  get bs := some ((), bs)

/-- One field. -/
def one (f : Field α) : Fields α where
  names := [f.name]
  members a := if f.omitted a then [] else [(f.name, f.format.toJson a)]
  check name src d :=
    if name = f.name then (f.format.ofDocument src d).map fun _ => () else .ok ()
  build src ms :=
    match ms.lookup (some f.name) with
    | some d => f.format.ofDocument src d
    | .none =>
      match f.missing with
      | some a => .ok a
      | .none => .error (.missingField f.name)
  take src whole
    | [] =>
      match f.cut with
      | some a => if whole then .ok (a, []) else .error .malformed
      | .none => .error (tooShort whole)
    | d :: ds => (f.format.ofDocument src d).map fun a => (a, ds)
  put := f.format.put
  get := f.format.get

/-- The fields of one record, then those of another. -/
def and (f : Fields α) (g : Fields β) : Fields (α × β) where
  names := f.names ++ g.names
  members p := f.members p.1 ++ g.members p.2
  check name src d := do
    f.check name src d
    g.check name src d
  build src ms := do
    let a ← f.build src ms
    let b ← g.build src ms
    return (a, b)
  take src whole items := do
    let (a, items) ← f.take src whole items
    let (b, items) ← g.take src whole items
    return ((a, b), items)
  put p := f.put p.1 ++ g.put p.2
  get bs := do
    let (a, bs) ← f.get bs
    let (b, bs) ← g.get bs
    some ((a, b), bs)

/-- The fields of a type whose values stand for those of another. -/
def map (f : Fields α) (make : α → β) (view : β → α) : Fields β where
  names := f.names
  members b := f.members (view b)
  check := f.check
  build src ms := (f.build src ms).map make
  take src whole items := (f.take src whole items).map fun r => (make r.1, r.2)
  put b := f.put (view b)
  get bs := (f.get bs).map fun r => (make r.1, r.2)

/-- Goes through the members in the order of the text, with the names met so
far. -/
def scan (f : Fields α) (src : Source) (met : List String) :
    List (Option String × Document) → Except DecodeFault Unit
  | [] => .ok ()
  | (.none, _) :: _ => .error .malformed
  | (some k, d) :: ms =>
    if k ∈ f.names then
      if k ∈ met then .error (.duplicateField k)
      else do
        f.check k src d
        scan f src (k :: met) ms
    else if d.isWhole then scan f src met ms
    else .error .malformed

/-- Reads the members of a record. -/
def ofMembers (f : Fields α) (src : Source) (ms : List (Option String × Document))
    (whole : Bool) : Except DecodeFault α := do
  f.scan src [] ms
  if whole then f.build src ms else .error .malformed

/-- Reads the list of the fields of a record. -/
def ofItems (f : Fields α) (src : Source) (items : List Document) (whole : Bool) :
    Except DecodeFault α := do
  let (a, surplus) ← f.take src whole items
  match surplus, src.surplus with
  | _ :: _, some fault => .error fault
  | _, _ => if whole then return a else .error .malformed

/-- Reads a record. -/
def ofDocument (f : Fields α) : ReadDocument α
  | src, .obj ms whole => f.ofMembers src ms whole
  | src, .arr items whole => f.ofItems src items whole
  | _, d => .error (typeFault d)

/-- The format of a record. -/
def format (f : Fields α) : Format α where
  toJson a := .obj (f.members a)
  ofDocument := f.ofDocument
  put := f.put
  get := f.get

end Fields

/-- A record that must have this field and those that follow. -/
def required (name : String) (format : Format α) : Fields α :=
  .one (.required name format)

end RatingServer.Wire
