import CatalogSync.Schema.Parse

/-!
Checks across the models of a schema. Errors are names that are given twice and key directives
that name no field; warnings are models without fields, relations that name nothing and relations
that lead to no model. `Schema.issues` lists what all checks find, check after check.
-/

namespace CatalogSync

/-- What a check found. -/
inductive Issue where
  | duplicateModelName (model : String)
  | duplicateFieldName (model field : String)
  | emptyModel (model : String)
  | emptyRelation (model field : String)
  | unknownRelationTarget (model field target : String)
  | unknownIdField (model name : String)
deriving DecidableEq, Repr

namespace Issue

/-- Errors make a schema invalid, warnings do not. -/
def isError : Issue → Bool
  | .duplicateModelName _ => true
  | .duplicateFieldName _ _ => true
  | .unknownIdField _ _ => true
  | _ => false

def level (i : Issue) : String := if i.isError then "error" else "warning"

def code : Issue → String
  | .duplicateModelName _ => "DUPLICATE_MODEL_NAME"
  | .duplicateFieldName _ _ => "DUPLICATE_FIELD_NAME"
  | .emptyModel _ => "EMPTY_MODEL"
  | .emptyRelation _ _ => "EMPTY_RELATION"
  | .unknownRelationTarget _ _ _ => "UNKNOWN_RELATION_TARGET"
  | .unknownIdField _ _ => "UNKNOWN_ID_FIELD"

def message : Issue → String
  | .duplicateModelName model => s!"Model '{model}' is defined more than once."
  | .duplicateFieldName model field =>
    s!"Field '{field}' appears more than once in model '{model}'."
  | .emptyModel model => s!"Model '{model}' has no fields."
  | .emptyRelation model field =>
    s!"Relation on '{model}.{field}' names neither fields/references nor a constraint."
  | .unknownRelationTarget model field target =>
    s!"Relation field '{model}.{field}' points at unknown model '{target}'."
  | .unknownIdField model name => s!"@@id in model '{model}' names unknown field '{name}'."

def model : Issue → String
  | .duplicateModelName m => m
  | .duplicateFieldName m _ => m
  | .emptyModel m => m
  | .emptyRelation m _ => m
  | .unknownRelationTarget m _ _ => m
  | .unknownIdField m _ => m

/-- The field that an issue is about, where it is about one. -/
def field? : Issue → Option String
  | .duplicateFieldName _ f => some f
  | .emptyRelation _ f => some f
  | .unknownRelationTarget _ f _ => some f
  | .unknownIdField _ f => some f
  | _ => none

def line (i : Issue) : String :=
  s!"[{i.level.toUpper}] {i.code}: {i.message}"

end Issue

/-- The members of a list that occurred before, each as often as it does so. -/
def repeats (seen : List String) : List String → List String
  | [] => []
  | name :: rest =>
    if name ∈ seen then name :: repeats (name :: seen) rest else repeats (name :: seen) rest

namespace Schema

def modelNameIssues (s : Schema) : List Issue :=
  (repeats [] s.modelNames).map .duplicateModelName

def fieldNameIssues (s : Schema) : List Issue :=
  s.models.flatMap fun m => (repeats [] (m.fields.map (·.name))).map (.duplicateFieldName m.name)

def emptyModelIssues (s : Schema) : List Issue :=
  (s.models.filter (·.fields.isEmpty)).map fun m => .emptyModel m.name

/-- The model that a relation field leads to: its type without markers. -/
def relationTarget (type : String) : String :=
  String.ofList
    (Text.dropTrailing (· = '?') (Text.remove TypeRule.arrayMarker.toList type.toList))

/-- The issues of one field's relation. -/
def relationIssuesOf (s : Schema) (m : Model) (f : Field) : List Issue :=
  match f.relation with
  | none => []
  | some r =>
    (if r.isMeaningful then [] else [.emptyRelation m.name f.name])
      ++ if relationTarget f.type ∈ s.modelNames then []
        else [.unknownRelationTarget m.name f.name (relationTarget f.type)]

def relationIssues (s : Schema) : List Issue :=
  s.models.flatMap fun m => m.fields.flatMap (s.relationIssuesOf m)

/-- The names in the first key directive of a line, cut at commas, blank ones left out. -/
def idNames (directive : String) : List String :=
  match idNames? directive.toList with
  | some names =>
    (Relation.trimmedPieces (Text.splitOn [','] names)).map String.ofList
  | none => []

def idDirectiveIssues (s : Schema) : List Issue :=
  s.models.flatMap fun m => m.directives.flatMap fun d =>
    ((idNames d).filter fun n => n ∉ m.fields.map (·.name)).map (.unknownIdField m.name)

/-- The checks, in the order in which they run, with their names. -/
def checks : List (String × (Schema → List Issue)) :=
  [("model_names", modelNameIssues), ("field_names", fieldNameIssues),
    ("empty_models", emptyModelIssues), ("relations", relationIssues),
    ("id_directives", idDirectiveIssues)]

/-- What all checks find. -/
def issues (s : Schema) : List Issue := checks.flatMap fun c => c.2 s

end Schema

/-- The count of errors and warnings in words. -/
def Issue.summary (issues : List Issue) : String :=
  let errors := (issues.filter (·.isError)).length
  s!"Validation: {errors} error(s), {issues.length - errors} warning(s)."

namespace Schema

/-- No check finds an error. -/
def isValid (s : Schema) : Bool := !s.issues.any (·.isError)

/-- What is noted while all checks run. -/
def checkNotes (s : Schema) : List Note :=
  let source := "mysqltranslate.validators"
  (checks.map fun c => ⟨.debug, source, s!"Running validator: validate_{c.1}"⟩)
    ++ [⟨.info, source, s!"Schema validation complete: {Issue.summary s.issues}"⟩]

end Schema

end CatalogSync
