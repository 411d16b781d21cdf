import CatalogSync.Schema.RoundTrip
import CatalogSync.Schema.Unchecked

/-!
Schemas under edit. The records of a schema may be changed where they stand, one field at a time. A draft
is a checked schema until something is set aside in one of its records or all fields of a record are
exchanged at once; from then on its records are not checked, and changes and looks may fail half way. What
was changed before a fault stays changed. Which of the two a draft is can be told neither by its text nor
by what the checks find (`Draft.Represents`).
-/

namespace CatalogSync

variable [Room]

inductive Draft where
  | checked (schema : Schema)
  | unchecked (schema : UncheckedSchema)

/-- The blocks in front of the models. -/
inductive HeaderBlock where
  | generator
  | datasource
deriving DecidableEq, Repr

/-- A change of one model. -/
inductive ModelChange where
  /-- Adds a field at the end and sets the widths anew. -/
  | addField (field : Field)
  /-- Adds a field at the end and leaves the widths. -/
  | pushField (field : Field)
  /-- Sets what stands under a name in the first field of a name. -/
  | setField (field name : String) (value : Json)
  /-- Takes out all fields of a name and leaves the widths. -/
  | dropField (field : String)
  /-- Sets what stands under a name in the model. -/
  | set (name : String) (value : Json)
  | addDirective (line : String)
  | recomputeWidths

/-- What a change of a model shows of it. -/
structure ModelDigest where
  nameWidth : Json
  typeWidth : Json
  ids : List Json
  text : List Char

/-- The list with another value in the place of the first one that passes the test. -/
def replaceFirst {α : Type} (p : α → Bool) (a : α) : List α → List α
  | [] => []
  | x :: rest => if p x then a :: rest else x :: replaceFirst p a rest

namespace ModelChange

/-- The change sets something aside, after which the records are not checked. -/
def setsAside : ModelChange → Bool
  | .setField _ name _ => Record.isAside name
  | .set name _ => Record.isAside name
  | _ => false

end ModelChange

namespace Model

/-- A changed model; nothing where the field to be set is not there. -/
def changed (m : Model) : ModelChange → Except Fault (Option Model)
  | .addField f => .ok (m.addField f)
  | .pushField f => .ok (some { m with fields := m.fields ++ [f] })
  | .setField field name value =>
    match m.field? field with
    | none => .ok none
    | some f => (f.assign name value).map fun f =>
      some { m with fields := replaceFirst (·.name = field) f m.fields }
  | .dropField field => .ok (some { m with fields := m.fields.filter (·.name ≠ field) })
  | .set name value => (m.assign name value).map some
  | .addDirective line => .ok (some { m with directives := m.directives ++ [line] })
  | .recomputeWidths => .ok (some m.recomputeWidths)

def digest (m : Model) : Except Fault ModelDigest := do
  return {
    nameWidth := .int m.nameWidth
    typeWidth := .int m.typeWidth
    ids := (m.fields.filter (·.isId)).map fun f => .str (.text f.name)
    text := ← m.text }

end Model

namespace Unchecked

/-- The place of the first value that has a name. -/
def placeOf (name : String) : List Unchecked → Except Fault (Option Nat)
  | [] => .ok none
  | v :: rest => do
    if (← v.member "name").isText (.text name) then return some 0
    else return (← placeOf name rest).map (· + 1)

/-- A change of an unchecked model. -/
abbrev Changing := EStateM Fault Unchecked

namespace Changing

def ofExcept {α : Type} : Except Fault α → Changing α
  | .ok a => pure a
  | .error e => throw e

/-- What stands in the model under a name. -/
def member (name : String) : Changing Unchecked := do ofExcept ((← get).member name)

/-- Adds a value at the end of a list of the model. -/
def append (name : String) (value : Unchecked) : Changing Unit := do
  let push ← ofExcept (← member name).append
  modify (·.withMember name (push value))

/-- What the model can do must not have been set to a value. -/
def callable (name : String) : Changing Unit := do ofExcept ((← get).callable name)

/-- Sets a field to a value that was checked before. -/
def setChecked (name : String) (value : Unchecked) : Changing Unit := do
  set (← ofExcept (Model.shape.setRead (← get) name (.ok value)))

/-- The width for the lengths of what stands in all fields under a name. -/
def widthOf (name : String) (fields : Unchecked) : Changing Nat := do
  let lengths ← ofExcept (fields.items >>= (·.mapM fun f => do (← f.member name).length))
  return Model.widthOf lengths

/-- Sets both widths anew from the fields of the model. -/
def recomputeWidths : Changing Unit := do
  callable "recompute_widths"
  let fields ← member "fields"
  let widths ← if fields.isTruthy then pure (widthOf "name" fields, widthOf "type" fields)
    else pure (pure 0, pure 0)
  setChecked "name_column_width" (.plain (.int (← widths.1)))
  setChecked "type_column_width" (.plain (.int (← widths.2)))

/-- The place of the first field of a name. -/
def placeOf (field : String) : Changing (Option Nat) := do
  callable "get_field"
  ofExcept ((← member "fields").items >>= Unchecked.placeOf field)

/-- Carries out a change; whether what was to be changed was there. -/
def run : ModelChange → Changing Bool
  | .addField f => do
    callable "add_field"
    append "fields" f.unchecked
    recomputeWidths
    return true
  | .pushField f => do
    append "fields" f.unchecked
    return true
  | .setField field name value => do
    match ← placeOf field with
    | none => return false
    | some i =>
      let fields ← ofExcept (← member "fields").items
      match fields[i]? with
      | none => return false
      | some f =>
        let f ← ofExcept (Field.shape.assign f name value)
        modify (·.withMember "fields" (ofItems (fields.set i f)))
        return true
  | .dropField field => do
    let fields ← ofExcept (← member "fields").items
    let kept ← ofExcept (fields.filterM fun f => return !(← f.member "name").isText (.text field))
    setChecked "fields" (ofItems kept)
    return true
  | .set name value => do
    set (← ofExcept (Model.shape.assign (← get) name value))
    return true
  | .addDirective line => do
    append "directives" (.plain (.str (.text line)))
    return true
  | .recomputeWidths => do
    recomputeWidths
    return true

end Changing

def digest (m : Unchecked) : Except Fault ModelDigest := do
  return {
    nameWidth := (← m.member "name_column_width").toJson
    typeWidth := (← m.member "type_column_width").toJson
    ids := ← (← m.idFields).mapM fun f => return (← f.member "name").toJson
    text := ← m.modelText }

/-- The plain value of a model; a truth value that stands as a width is written as a number. -/
def modelWritten (m : Unchecked) : Except Fault Json := do
  match ← m.written with
  | .obj members => return .obj (members.map fun p =>
      (p.1, match p.2 with
        | .bool b =>
          if p.1 = "name_column_width" ∨ p.1 = "type_column_width" then .int (if b then 1 else 0)
          else .bool b
        | j => j))
  | j => return j

end Unchecked

/-- A draft, and what was noted meanwhile. -/
structure Editing where
  draft : Draft
  journal : List Note := []

/-- An edit of a draft or a look at it. -/
abbrev Edit := EStateM Fault Editing

namespace Edit

def ofExcept {α : Type} : Except Fault α → Edit α
  | .ok a => pure a
  | .error e => throw e

/-- Adds notes to the journal. -/
def notes (ns : List Note) : Edit Unit := modify fun e => { e with journal := e.journal ++ ns }

def put (draft : Draft) : Edit Unit := modify fun e => { e with draft := draft }

/-- The draft, its records from now on unchecked. -/
def loosened : Edit UncheckedSchema := do
  let s := match (← get).draft with
    | .checked s => s.unchecked
    | .unchecked s => s
  put (.unchecked s)
  return s

def addModel (m : Model) : Edit Unit := do
  match (← get).draft with
  | .checked s => put (.checked (s.addModel m))
  | .unchecked s => put (.unchecked { s with models := s.models ++ [m.unchecked] })

def modelNames : Edit (List Json) := do
  match (← get).draft with
  | .checked s => return s.modelNames.map fun name => .str (.text name)
  | .unchecked s => ofExcept s.modelNames

/-- The short form shown in reports. -/
def summary : Edit String := do
  match (← get).draft with
  | .checked s => return s.summary
  | .unchecked s => return ({ models := s.models.map fun _ => { name := "" } } : Schema).summary

def text : Edit (List Char) := do
  match (← get).draft with
  | .checked s =>
    let text ← ofExcept s.text
    notes s.renderNotes
    return text
  | .unchecked s => ofExcept s.text

/-- Whether the text of the draft is read as the draft itself. -/
def roundTrips : Edit Bool := do
  match (← get).draft with
  | .checked s =>
    notes s.roundTripNotes
    ofExcept s.roundTrips
  | .unchecked s =>
    let text ← ofExcept s.text
    notes (Schema.parseNotes text)
    let other ← ofExcept (Schema.parse text)
    ofExcept (s.isSame other)

/-- What the check of a name finds, or what all checks find where there is none of that name. -/
def findings (name : String) : Edit (List Finding) := do
  match (← get).draft with
  | .checked s =>
    match Schema.checks.find? (·.1 = name) with
    | some check => return (check.2 s).map (·.finding)
    | none =>
      notes s.checkNotes
      return s.issues.map (·.finding)
  | .unchecked s =>
    match UncheckedSchema.checks.find? (·.1 = name) with
    | some check => ofExcept (check.2 s)
    | none => ofExcept s.findings

/-- Sets what stands under a name in a header block; gives the block. -/
def setHeader (block : HeaderBlock) (name : String) (value : Json) : Edit Json := do
  match (← get).draft, block, Record.isAside name with
  | .checked s, .generator, false =>
    let g ← ofExcept (s.generator.assign name value)
    put (.checked { s with generator := g })
    return g.toJson
  | .checked s, .datasource, false =>
    let d ← ofExcept (s.datasource.assign name value)
    put (.checked { s with datasource := d })
    return d.toJson
  | _, .generator, _ =>
    let s ← loosened
    let g ← ofExcept (Generator.shape.assign s.generator name value)
    put (.unchecked { s with generator := g })
    ofExcept g.written
  | _, .datasource, _ =>
    let s ← loosened
    let d ← ofExcept (Datasource.shape.assign s.datasource name value)
    put (.unchecked { s with datasource := d })
    ofExcept d.written

/-- The first model of a name. -/
def model? (name : String) : Edit (Option Json) := do
  match (← get).draft with
  | .checked s => return (s.model? name).map (·.toJson)
  | .unchecked s =>
    match (← ofExcept (Unchecked.placeOf name s.models)).bind (s.models[·]?) with
    | none => return none
    | some m => return some (← ofExcept m.modelWritten)

/-- The first field of a name in the first model of a name. -/
def field? (model field : String) : Edit (Option Json) := do
  match (← get).draft with
  | .checked s => return ((s.model? model).bind (·.field? field)).map (·.toJson)
  | .unchecked s =>
    match (← ofExcept (Unchecked.placeOf model s.models)).bind (s.models[·]?) with
    | none => return none
    | some m =>
      ofExcept do
        m.callable "get_field"
        let fields ← (← m.member "fields").items
        match (← Unchecked.placeOf field fields).bind (fields[·]?) with
        | none => return none
        | some f => return some (← f.written)

/-- Changes the first model of a name; nothing where it, or the field to be changed, is not
there. -/
def change (name : String) (change : Except Fault ModelChange) : Edit (Option ModelDigest) := do
  let aside := match change with
    | .ok c => c.setsAside
    | .error _ => false
  match (← get).draft, aside with
  | .checked s, false =>
    match s.model? name with
    | none => return none
    | some m =>
      match ← ofExcept (m.changed (← ofExcept change)) with
      | none => return none
      | some m' =>
        put (.checked { s with models := replaceFirst (·.name = name) m' s.models })
        return some (← ofExcept m'.digest)
  | _, _ =>
    let s ← loosened
    let place ← ofExcept (Unchecked.placeOf name s.models)
    match place, place.bind (s.models[·]?) with
    | some i, some m =>
      let store (m : Unchecked) : Edit Unit :=
        put (.unchecked { s with models := s.models.set i m })
      match Unchecked.Changing.run (← ofExcept change) m with
      | .ok found m' =>
        store m'
        if found then return some (← ofExcept m'.digest) else return none
      | .error e m' =>
        store m'
        throw e
    | _, _ => return none

end Edit

end CatalogSync
