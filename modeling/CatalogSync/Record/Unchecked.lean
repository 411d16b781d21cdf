import CatalogSync.Fault
import CatalogSync.Json.Inline

/-!
Records whose fields are not checked. Only what is assigned to a field is: values that were put in the
place of all fields at once, or that are set aside, may be any. A field of such a record may hold any
value, or be missing; so may the parts of a list that stands in it. What looks at a field has to take it
as it is: a value of another kind than is needed is a fault there, and not where it was set.
-/

namespace CatalogSync

/-- What a record keeps besides its fields. -/
structure Aside where
  /-- Values under names that belong to no field. -/
  notes : List (LooseText × Json) := []
  /-- What tells records of the same fields apart. -/
  mark : Json := .null
  /-- Where a name is looked up last. -/
  more : Json := .null
  /-- What was put in the place of the names of the fields that were given. -/
  given : Option Json := none

/-- A value of a record whose fields are not checked: plain, a list in which records stand, or a
record. -/
inductive Unchecked where
  | plain (value : Json)
  | list (items : List Unchecked)
  | record (kind : RecordName) (members : List (LooseText × Unchecked)) (aside : Aside)

namespace Json

/-- The value that stands in another one under a name. -/
def subscript (j : Json) (name : String) : Except Fault Json :=
  match j with
  | .obj members =>
    match lookup? members name with
    | some value => .ok value
    | none => .error (.absentKey name)
  | .arr _ => .error (.wrongKind "list indices must be integers or slices, not str")
  | .str _ => .error (.wrongKind "string indices must be integers, not 'str'")
  | j => .error (.wrongKind s!"'{j.kindName}' object is not subscriptable")

/-- The number that a value is worth, in units of two to the -1074. -/
def units? : Json → Option Int
  | .bool b => some (if b then powerOfTwo 1074 else 0)
  | .int i => some (i * powerOfTwo 1074)
  | .float x => some x.units
  | _ => none

mutual

/-- The order of texts, of numbers, or of lists by the first values in which they differ. -/
def precedes : Json → Json → Except Fault Bool
  | .str s, .str t => .ok (s.codes < t.codes)
  | .arr items, .arr others => itemsPrecede items others
  | j, k =>
    match j.units?, k.units? with
    | some m, some n => .ok (m < n)
    | _, _ => .error (.wrongKind
      s!"'<' not supported between instances of '{j.kindName}' and '{k.kindName}'")

def itemsPrecede : List Json → List Json → Except Fault Bool
  | _, [] => .ok false
  | [], _ :: _ => .ok true
  | j :: rest, k :: others => if j.same k then itemsPrecede rest others else precedes j k

end

end Json

namespace Aside

/-- The name under which a record keeps where its kind comes from. -/
def originName : String := "__pydantic_generic_metadata__"

/-- The record is of its own kind. -/
def ofOwnKind (aside : Aside) : Except Fault Bool :=
  match Json.lookup? aside.notes originName with
  | none => .ok true
  | some j => (j.subscript "origin").map (!·.isTruthy)

/-- The value under a name that is no field of a record. -/
def member (aside : Aside) (kind name : String) : Except Fault Json :=
  if !aside.more.isTruthy then .error (.lacking kind name)
  else match aside.more.subscript name with
    | .error (.absentKey _) => .error (.lacking kind name)
    | found => found

/-- Nothing tells two records of the same fields apart: their marks are the same, and what they
have under further names, where either has anything there. -/
def sameBeside (aside other : Aside) : Bool :=
  aside.mark.same other.mark
    && (!aside.more.isTruthy && !other.more.isTruthy || aside.more.same other.more)

/-- What every record can do must not have been set to a value. -/
def callable (aside : Aside) (name : String) : Except Fault Unit :=
  match Json.lookup? aside.notes name with
  | none => .ok ()
  | some j => .error (.wrongKind s!"'{j.kindName}' object is not callable")

end Aside

namespace Unchecked

/-- The word by which messages name the kind of a value. -/
def kindName : Unchecked → String
  | .plain j => j.kindName
  | .list _ => "list"
  | .record kind _ _ => kind.word

def isNull : Unchecked → Bool
  | .plain .null => true
  | _ => false

/-- Neither null, false, zero, nor empty. -/
def isTruthy : Unchecked → Bool
  | .plain j => j.isTruthy
  | .list items => !items.isEmpty
  | .record _ _ _ => true

/-- The value is a text. -/
def isText (v : Unchecked) (s : LooseText) : Bool :=
  match v with
  | .plain (.str t) => t = s
  | _ => false

def plain? : Unchecked → Option Json
  | .plain j => some j
  | _ => none

/-- A list of values; it is plain where they are. -/
def ofItems (items : List Unchecked) : Unchecked :=
  match items.mapM plain? with
  | some js => .plain (.arr js)
  | none => .list items

/-- The values that a value is gone through as: the items of a list, the names of an object, or the
characters of a text. -/
def items : Unchecked → Except Fault (List Unchecked)
  | .plain (.arr js) => .ok (js.map .plain)
  | .plain (.obj members) => .ok (members.map fun m => .plain (.str m.1))
  | .plain (.str s) => .ok (s.codes.map fun n => .plain (.str (LooseText.ofCodes [n])))
  | .list items => .ok items
  | v => .error (.wrongKind s!"'{v.kindName}' object is not iterable")

/-- How many values a value is gone through as. -/
def length : Unchecked → Except Fault Nat
  | .plain (.arr js) => .ok js.length
  | .plain (.obj members) => .ok members.length
  | .plain (.str s) => .ok s.codes.length
  | .list items => .ok items.length
  | v => .error (.wrongKind s!"object of type '{v.kindName}' has no len()")

/-- A list that is to get one more value at its end. -/
def append : Unchecked → Except Fault (Unchecked → Unchecked)
  | .plain (.arr js) => .ok fun item => ofItems (js.map .plain ++ [item])
  | .list items => .ok fun item => .list (items ++ [item])
  | v => .error (.lacking v.kindName "append")

/-- The field of a name. -/
def member (v : Unchecked) (name : String) : Except Fault Unchecked :=
  match v with
  | .record kind members aside =>
    match members.find? (·.1 = .text name) with
    | some m => .ok m.2
    | none => (aside.member kind.word name).map .plain
  | v => .error (.lacking v.kindName name)

/-- Sets a value under a name, in place where the name is known and at the end otherwise. -/
def put (members : List (LooseText × Unchecked)) (name : LooseText) (value : Unchecked) :
    List (LooseText × Unchecked) :=
  match members with
  | [] => [(name, value)]
  | (n, v) :: rest => if n = name then (n, value) :: rest else (n, v) :: put rest name value

/-- The record with one field replaced, and nothing else changed. -/
def withMember (v : Unchecked) (name : String) (value : Unchecked) : Unchecked :=
  match v with
  | .record kind members aside => .record kind (put members name value) aside
  | v => v

/-- What records can do must not have been set to a value. -/
def callable (v : Unchecked) (name : String) : Except Fault Unit :=
  match v with
  | .record _ _ aside => aside.callable name
  | _ => .ok ()

mutual

/-- The plain value of a value: a record is the object of its fields, in the order in which they
were set. -/
def toJson : Unchecked → Json
  | .plain j => j
  | .list items => .arr (toJsons items)
  | .record _ members _ => .obj (toMembers members)

def toJsons : List Unchecked → List Json
  | [] => []
  | v :: rest => toJson v :: toJsons rest

def toMembers : List (LooseText × Unchecked) → List (LooseText × Json)
  | [] => []
  | (name, v) :: rest => (name, toJson v) :: toMembers rest

end

/-- A value inside a text. -/
def inline (v : Unchecked) : String := v.toJson.shown

/-- The name under which a record keeps how it is written. -/
def writerName : String := "__pydantic_serializer__"

/-- The plain value of a record, unless a value stands where a record keeps how it is written. -/
def written (v : Unchecked) : Except Fault Json :=
  match v with
  | .record _ _ aside => do
    aside.callable "model_dump"
    match Json.lookup? aside.notes writerName with
    | some j => .error (.lacking j.kindName "to_python")
    | none => .ok v.toJson
  | v => .ok v.toJson

/-- Goes on only where the answer was yes. -/
def andAlso (first : Except Fault Bool) (next : Except Fault Bool) : Except Fault Bool := do
  if ← first then next else return false

mutual

/-- Two values are the same. Records are so where their fields are and nothing tells them apart. -/
def same : Unchecked → Unchecked → Except Fault Bool
  | .plain j, .plain k => .ok (j.same k)
  | .list items, .list others =>
    if items.length = others.length then sameItems items others else .ok false
  | .record kind members aside, .record kind' members' aside' => do
    let own ← aside.ofOwnKind
    let own' ← aside'.ofOwnKind
    if own && own' && kind = kind' && aside.sameBeside aside'
        && members.length = members'.length then sameMembers members members'
    else return false
  | _, _ => .ok false

/-- The values of two lists are the same, one by one. -/
def sameItems : List Unchecked → List Unchecked → Except Fault Bool
  | v :: rest, w :: others => andAlso (same v w) (sameItems rest others)
  | _, _ => .ok true

/-- Each of some fields is the same as the field of its name among others. -/
def sameMembers : List (LooseText × Unchecked) → List (LooseText × Unchecked) → Except Fault Bool
  | [], _ => .ok true
  | (name, v) :: rest, others =>
    match others.find? (·.1 = name) with
    | some m => andAlso (same v m.2) (sameMembers rest others)
    | none => .ok false

end

/-! ## Checked records as unchecked ones -/

/-- A value under a name by the reading that is given for the name; plain where none is. -/
def readPart (parts : List (String × (Json → Unchecked))) (name : LooseText) (value : Json) :
    Unchecked :=
  match parts.find? (name = .text ·.1) with
  | some part => part.2 value
  | none => .plain value

/-- The record of an object, its fields read by name where a reading is given and plain
otherwise. -/
def ofObject (kind : RecordName) (parts : List (String × (Json → Unchecked))) : Json → Unchecked
  | .obj members => .record kind (members.map fun m => (m.1, readPart parts m.1 m.2)) {}
  | j => .plain j

/-- The list of an array, its items read alike. -/
def ofArray (part : Json → Unchecked) : Json → Unchecked
  | .arr js => ofItems (js.map part)
  | j => .plain j

end Unchecked

end CatalogSync
