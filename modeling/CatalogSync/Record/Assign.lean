import CatalogSync.Record.Decode
import CatalogSync.Record.Unchecked

/-!
Setting one field of a record by its name. Records may be changed once they were made, and every kind of
record that may be says of itself that what is assigned to a field is checked as in a new record; this is
how a parsed field is marked as a key, how a model gets its widths and how a binding gets another path.
What a record computes cannot be set. Names that start with an underscore are no fields, and nothing is
checked under them: most are notes, which a record sets aside, but a few stand for what every record
keeps, and one of them for all its fields at once. Whoever holds a record may set these too, so each of
them has the effect that is documented for records: a checked value stands under the name of its field
and nothing else is changed (`Shape.exists_of_assign`).
-/

namespace CatalogSync.Record

/-- What every record computes. -/
def computedNames : List String :=
  ["model_extra", "model_fields_set", "__fields__", "__fields_set__"]

/-- The name under which a record tells who watches it. -/
def watchersName : String := "__weakref__"

/-- The name under which a record keeps its kind. -/
def kindName : String := "__class__"

/-- The name under which a record keeps all its fields. -/
def fieldsName : String := "__dict__"

/-- The name under which a record keeps what tells it apart from others of the same fields. -/
def markName : String := "__pydantic_private__"

/-- The name under which a record keeps where names are looked up last. -/
def moreName : String := "__pydantic_extra__"

/-- The name under which a record keeps the names of the fields that were given. -/
def givenName : String := "__pydantic_fields_set__"

/-- The name under which a record keeps how its fields are checked. -/
def checkerName : String := "__pydantic_validator__"

/-- The name under which a record keeps how single fields are set. -/
def settersName : String := "__pydantic_setattr_handlers__"

/-- A name that is no field. -/
def isAside (name : String) : Bool := name.toList.head? = some '_'

/-- A kind of record as far as setting its fields goes: each field with the way to read a value for
it, and what the record computes besides what every record does. -/
structure Shape where
  kind : RecordName
  fields : List (String × Decoder Unchecked)
  computed : List String := []

/-- A reading whose values stand plain in a record. -/
def plainly {α : Type} (decoder : Decoder α) (encode : α → Json) : Decoder Unchecked := fun j =>
  (decoder j).map fun a => .plain (encode a)

/-- A reading whose values stand as records in a record, by their plain values. -/
def nested {α : Type} (decoder : Decoder α) (encode : α → Json) (part : Json → Unchecked) :
    Decoder Unchecked := fun j => (decoder j).map fun a => part (encode a)

namespace Shape

def isComputed (shape : Shape) (name : String) : Bool :=
  computedNames.contains name || shape.computed.contains name

def isField (shape : Shape) (name : LooseText) : Bool :=
  shape.fields.any fun f => name = .text f.1

/-- Values under names: those of fields, and the others as notes. -/
def sorted (shape : Shape) (values : List (LooseText × Json)) :
    List (LooseText × Json) × List (LooseText × Json) :=
  values.partition (shape.isField ·.1)

/-- What is kept under a name that is no field. -/
def putAside (shape : Shape) (members : List (LooseText × Unchecked)) (aside : Aside)
    (name : String) (value : Json) : Except Fault Unchecked :=
  let kept := fun aside => .ok (.record shape.kind members aside)
  if name = watchersName then .error (.notWritable shape.kind name)
  else if name = kindName then
    .error (.wrongKind s!"{name} must be set to a class, not '{value.kindName}' object")
  else if name = fieldsName then
    match value with
    | .obj values =>
      let (fields, notes) := shape.sorted values
      .ok (.record shape.kind (fields.map fun m => (m.1, .plain m.2)) { aside with notes := notes })
    | _ => .error (.wrongKind s!"{name} must be set to a dictionary, not a '{value.kindName}'")
  else if name = markName then kept { aside with mark := value }
  else if name = moreName then kept { aside with more := value }
  else if name = givenName then kept { aside with given := some value }
  else kept { aside with notes := Json.put aside.notes name value }

/-- What has to be in order before and after a value is read for a field, and the record with that
value. Values under further names are taken in first. -/
def putField (shape : Shape) (members : List (LooseText × Unchecked)) (aside : Aside)
    (name : String) (read : Except Fault Unchecked) : Except Fault Unchecked := do
  if let some j := Json.lookup? aside.notes checkerName then
    throw (.lacking j.kindName "validate_assignment")
  let (fields, notes) ← match aside.more with
    | .null => pure ([], [])
    | .obj values => pure (shape.sorted values)
    | j => throw (.wrongKind s!"'{j.kindName}' object is not an instance of 'dict'")
  let value ← read
  if let some j := aside.given then
    throw (.wrongKind s!"'{j.kindName}' object is not an instance of 'set'")
  let members := fields.foldl (fun known m => Unchecked.put known m.1 (.plain m.2)) members
  let notes := notes.foldl (fun known m => Json.put known m.1 m.2) aside.notes
  return .record shape.kind (Unchecked.put members name value)
    { aside with notes := notes, more := .null }

/-- A value checked for a field; a name that is none is a fault. -/
def check (shape : Shape) (name : String) (value : Json) : Validated Unchecked :=
  match shape.fields.find? (·.1 = name) with
  | some f => (f.2 value).under (.name name)
  | none => .invalid [⟨[.name name], .unknownAttribute⟩]

/-- A value read for a field. -/
def read (shape : Shape) (name : String) (value : Json) : Except Fault Unchecked :=
  (shape.check name value).toExcept shape.kind

/-- What keeps a name from being set at all. -/
def barred (aside : Aside) (name : String) : Except Fault Unit :=
  match Json.lookup? aside.notes settersName with
  | none => .ok ()
  | some (.obj setters) =>
    match Json.lookup? setters name with
    | none => .ok ()
    | some .null => .ok ()
    | some j => .error (.wrongKind s!"'{j.kindName}' object is not callable")
  | some j => .error (.lacking j.kindName "get")

/-- The record with a field set to what was read for it. -/
def setRead (shape : Shape) (record : Unchecked) (name : String) (read : Except Fault Unchecked) :
    Except Fault Unchecked :=
  match record with
  | .record _ members aside => do
    barred aside name
    shape.putField members aside name read
  | v => .ok v

/-- The record with what stands under a name set to a value. -/
def assign (shape : Shape) (record : Unchecked) (name : String) (value : Json) :
    Except Fault Unchecked :=
  match record with
  | .record _ members aside => do
    barred aside name
    if shape.isComputed name then throw (.readOnly shape.kind name)
    else if isAside name then shape.putAside members aside name value
    else shape.putField members aside name (shape.read name value)
  | v => .ok v

end Shape

/-- A kind of checked record, the names that it computes, and how it stands as JSON. -/
structure Assignable (α : Type) where
  shape : Shape
  decoder : Decoder α
  encode : α → Json

/-- Reads a record anew with one field replaced. -/
def replaced {α : Type} (decoder : Decoder α) (record : Json) (name : String) (value : Json) :
    Validated α :=
  match record with
  | .obj members =>
    if (Json.lookup? members name).isSome then decoder (.obj (Json.put members name value))
    else .invalid [⟨[.name name], .unknownAttribute⟩]
  | _ => .fault .recordType

/-- The checked record with one field set by name; a name that the record does not have is a
fault. -/
def Assignable.assign {α : Type} (kind : Assignable α) (record : α) (name : String)
    (value : Json) : Except Fault α :=
  if kind.shape.isComputed name then .error (.readOnly kind.shape.kind name)
  else (replaced kind.decoder (kind.encode record) name value).toExcept kind.shape.kind

end CatalogSync.Record
