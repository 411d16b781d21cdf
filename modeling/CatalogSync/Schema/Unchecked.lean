import CatalogSync.Schema.Assign
import CatalogSync.Schema.Check
import CatalogSync.Schema.Render

/-!
Schemas whose records are not checked. They are written, checked across their models and edited as other
schemas are, until something is looked at that is missing or of another kind than is needed. A checked
schema has the same text and the same findings on both ways (`Schema.text_unchecked`,
`Schema.findings_unchecked`).
-/

namespace CatalogSync

structure UncheckedSchema where
  generator : Unchecked
  datasource : Unchecked
  models : List Unchecked

/-- What a check found, and the names that it is about as they stand in the schema. -/
structure Finding where
  issue : Issue
  context : List (String × Json)

/-- A finding of a checked schema. -/
def Issue.finding (i : Issue) : Finding :=
  let name (s : String) : Json := .str (.text s)
  ⟨i, ("model", name i.model) :: (i.field?.map fun f => ("field", name f)).toList⟩

def Schema.unchecked (s : Schema) : UncheckedSchema :=
  ⟨s.generator.unchecked, s.datasource.unchecked, s.models.map (·.unchecked)⟩

namespace Unchecked

variable [Room]

/-! ## The text of a schema -/

/-- Texts with a separator between them, `first` being the place of the first one. -/
def joined (separator : List Char) (first : Nat) (texts : List Unchecked) :
    Except Fault (List Char) := do
  let pieces ← texts.zipIdx.mapM fun (v, i) => match v with
    | .plain (.str s) => .ok s.shown.toList
    | v => .error (.wrongKind
      s!"sequence item {first + i}: expected str instance, {v.kindName} found")
  return Text.joined separator pieces

/-- The integer that a value is taken for. -/
def count : Unchecked → Except Fault Int
  | .plain (.int i) => .ok i
  | .plain (.bool b) => .ok (if b then 1 else 0)
  | v => .error (.wrongKind s!"'{v.kindName}' object cannot be interpreted as an integer")

/-- A text that is to be filled up, and its width. -/
def filling (v width : Unchecked) : Except Fault (List Char × Nat) :=
  match v with
  | .plain (.str s) => do
    let width ← width.count
    match widthFault? width with
    | some e => throw e
    | none => return (s.shown.toList, width.toNat)
  | v => .error (.lacking v.kindName "ljust")

def generatorText (g : Unchecked) : Except Fault (List Char) := do
  let name ← g.member "name"
  let provider ← g.member "provider"
  return ({ name := name.inline, provider := provider.inline } : Generator).render

def datasourceText (d : Unchecked) : Except Fault (List Char) := do
  let name ← d.member "name"
  let provider ← d.member "provider"
  return ({ name := name.inline, provider := provider.inline } : Datasource).render

/-- The piece that stands for a field which is not absent. -/
def piece (v : Unchecked) (name : String) (write : Unchecked → Except Fault (List Char)) :
    Except Fault (List (List Char)) := do
  let part ← v.member name
  if part.isNull then return [] else return [← write part]

def uniqueText (u : Unchecked) : Except Fault (List Char) := do
  let name ← u.member "map_name"
  return ({ mapName := if name.isNull then none else some name.inline } : UniqueFlag).render

/-- Names in brackets. -/
def namesText (names : Unchecked) : Except Fault (List Char) := do
  return '[' :: (← joined [',', ' '] 0 (← names.items)) ++ [']']

def relationText (r : Unchecked) : Except Fault (List Char) := do
  let names (word : String) (v : Unchecked) : Except Fault (List Char) := do
    return word.toList ++ (← v.namesText)
  let word (before after : String) (v : Unchecked) : Except Fault (List Char) :=
    .ok (before ++ v.inline ++ after).toList
  let parts := (← r.piece "fields" (names "fields: "))
    ++ (← r.piece "references" (names "references: "))
    ++ (← r.piece "map_name" (word "map: \"" "\""))
    ++ (← r.piece "on_delete" (word "onDelete: " ""))
    ++ (← r.piece "on_update" (word "onUpdate: " ""))
  return "@relation(".toList ++ Text.joined [',', ' '] parts ++ [')']

/-- The attributes of a field of a model with `ids` key fields, in their order. -/
def attributes (f : Unchecked) (ids : Nat) : Except Fault (List (List Char)) := do
  let isId ← f.member "is_id"
  let key := if isId.isTruthy ∧ ids = 1 then ["@id".toList] else []
  return key ++ (← f.piece "unique" uniqueText)
    ++ (← f.piece "default_expr" fun e => .ok ("@default(" ++ e.inline ++ ")").toList)
    ++ (← f.piece "db_type_annotation" fun t => .ok ("@db." ++ t.inline).toList)
    ++ (← f.piece "relation" relationText)

/-- The line of a field, without its indentation. -/
def fieldText (f nameWidth typeWidth : Unchecked) (ids : Nat) : Except Fault (List Char) := do
  let (name, nameWidth) ← (← f.member "name").filling nameWidth
  let (type, typeWidth) ← (← f.member "type").filling typeWidth
  let tail ← match ← f.attributes ids with
    | [] => pure type
    | attributes =>
      pure (Text.padRight typeWidth type ++ ' ' :: Text.joined [' '] attributes)
  return Text.trimRight (Text.padRight nameWidth name ++ ' ' :: tail)

/-- The fields of a model that identify it. -/
def idFields (m : Unchecked) : Except Fault (List Unchecked) := do
  (← (← m.member "fields").items).filterM fun f => return (← f.member "is_id").isTruthy

def modelText (m : Unchecked) : Except Fault (List Char) := do
  let name ← m.member "name"
  let ids := (← m.idFields).length
  let lines ← (← (← m.member "fields").items).mapM fun f => do
    let nameWidth ← m.member "name_column_width"
    let typeWidth ← m.member "type_column_width"
    return fieldIndent ++ (← f.fieldText nameWidth typeWidth ids)
  let header := ("model " ++ name.inline ++ " \x7b").toList
  let directives ← m.member "directives"
  let footer ← if directives.isTruthy then do
      let directives ← directives.items
      pure [[], ← joined ['\n'] (lines.length + 2) directives]
    else pure []
  return Text.joined ['\n'] (header :: lines ++ footer ++ [['}']]) ++ ['\n']

/-! ## Checks across models -/

/-- A value that a set of names can hold. -/
def asName : Unchecked → Except Fault Json
  | .plain (.arr _) => .error (.wrongKind "unhashable type: 'list'")
  | .plain (.obj _) => .error (.wrongKind "unhashable type: 'dict'")
  | .plain j => .ok j
  | v => .error (.wrongKind s!"unhashable type: '{v.kindName}'")

/-- The names of values that occurred before, each as often as it does so. -/
def repeatedNames (seen : List Json) : List Unchecked → Except Fault (List Json)
  | [] => .ok []
  | v :: rest => do
    let name ← (← v.member "name").asName
    let later ← repeatedNames (name :: seen) rest
    return if seen.any name.same then name :: later else later

/-- A finding about a model. -/
def finding (m : Unchecked) (issue : String → Issue) : Except Fault Finding := do
  let name ← m.member "name"
  return ⟨issue name.inline, [("model", name.toJson)]⟩

/-- A finding about a field of a model. -/
def fieldFinding (m : Unchecked) (field : Json) (issue : String → String → Issue) :
    Except Fault Finding := do
  let found ← m.finding fun name => issue name field.shown
  return { found with context := found.context ++ [("field", field)] }

/-- The relation names columns or a constraint. -/
def isMeaningful (r : Unchecked) : Except Fault Bool :=
  match r with
  | .record _ _ _ => do
    return (← r.member "fields").isTruthy || (← r.member "references").isTruthy
      || (← r.member "map_name").isTruthy
  | v => .error (.lacking v.kindName "is_meaningful")

/-- The findings about the relation of one field. -/
def relationFindings (models : List Json) (m f : Unchecked) : Except Fault (List Finding) := do
  let relation ← f.member "relation"
  if relation.isNull then return []
  let _ ← m.member "name"
  let name := (← f.member "name").toJson
  let empty ← if ← relation.isMeaningful then pure [] else
    pure [← m.fieldFinding name .emptyRelation]
  match ← f.member "type" with
  | .plain (.str type) =>
    let target := Schema.relationTarget type.shown
    if models.any (Json.same (.str (.text target))) then return empty
    else return empty ++ [← m.fieldFinding name fun m f => .unknownRelationTarget m f target]
  | v => throw (.lacking v.kindName "replace")

/-- The names in the key directive of a line that no field of the model has. -/
def unknownIds (fields : List Json) : Unchecked → Except Fault (List String)
  | .plain (.str line) => .ok ((Schema.idNames line.shown).filter fun n =>
      !fields.any (Json.same (.str (.text n))))
  | v => .error (.wrongKind s!"expected string or bytes-like object, got '{v.kindName}'")

end Unchecked

namespace UncheckedSchema

variable [Room]

def text (s : UncheckedSchema) : Except Fault (List Char) := do
  let generator ← s.generator.generatorText
  let datasource ← s.datasource.datasourceText
  let models ← s.models.mapM fun m => return (← m.modelText) ++ ['\n']
  return generator ++ ['\n', '\n'] ++ datasource ++ ['\n', '\n'] ++ models.flatten

/-- What stands in the schema as the names of its models. -/
def modelNames (s : UncheckedSchema) : Except Fault (List Json) :=
  s.models.mapM fun m => return (← m.member "name").toJson

/-- The same as a checked schema. -/
def isSame (s : UncheckedSchema) (other : Schema) : Except Fault Bool :=
  let other := other.unchecked
  let models := if other.models.length = s.models.length then
      Unchecked.sameItems other.models s.models else .ok false
  Unchecked.andAlso (other.generator.same s.generator)
    (Unchecked.andAlso (other.datasource.same s.datasource) models)

def modelNameFindings (s : UncheckedSchema) : Except Fault (List Finding) := do
  return (← Unchecked.repeatedNames [] s.models).map fun name =>
    ⟨.duplicateModelName name.shown, [("model", name)]⟩

def fieldNameFindings (s : UncheckedSchema) : Except Fault (List Finding) := do
  let found ← s.models.mapM fun m => do
    let names ← Unchecked.repeatedNames [] (← (← m.member "fields").items)
    names.mapM fun name => m.fieldFinding name .duplicateFieldName
  return found.flatten

def emptyModelFindings (s : UncheckedSchema) : Except Fault (List Finding) := do
  let found ← s.models.mapM fun m => do
    if (← m.member "fields").isTruthy then return []
    else return [← m.finding .emptyModel]
  return found.flatten

def relationFindings (s : UncheckedSchema) : Except Fault (List Finding) := do
  let names ← (← s.models.mapM (·.member "name")).mapM (·.asName)
  let found ← s.models.mapM fun m => do
    let found ← (← (← m.member "fields").items).mapM (m.relationFindings names)
    return found.flatten
  return found.flatten

def idDirectiveFindings (s : UncheckedSchema) : Except Fault (List Finding) := do
  let found ← s.models.mapM fun m => do
    let fields ← (← (← m.member "fields").items).mapM fun f => do (← f.member "name").asName
    let found ← (← (← m.member "directives").items).mapM fun line => do
      (← Unchecked.unknownIds fields line).mapM fun name =>
        m.fieldFinding (.str (.text name)) .unknownIdField
    return found.flatten
  return found.flatten

/-- The checks, in the order in which they run, with their names. -/
def checks : List (String × (UncheckedSchema → Except Fault (List Finding))) :=
  [("model_names", modelNameFindings), ("field_names", fieldNameFindings),
    ("empty_models", emptyModelFindings), ("relations", relationFindings),
    ("id_directives", idDirectiveFindings)]

/-- What all checks find. -/
def findings (s : UncheckedSchema) : Except Fault (List Finding) := do
  return (← checks.mapM fun c => c.2 s).flatten

end UncheckedSchema

end CatalogSync
