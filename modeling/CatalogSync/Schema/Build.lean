import CatalogSync.Catalog.Table
import CatalogSync.Catalog.TypeRule
import CatalogSync.Schema.Basic

/-!
The schema of catalog tables: one model for each table, with a field for each column, a field for
each constraint that refers to another table, and directives for keys and unique constraints of
several columns.
-/

namespace CatalogSync

/-- Joins names with a comma and a space. -/
def commaList (names : List String) : String := ", ".intercalate names

namespace Field

/-- The field of a column. -/
def ofColumn (c : Column) : Field :=
  let type := TypeRule.fieldType c.sqlType c.nullable
  { name := c.field
    type := type
    isRequired := !c.nullable
    isId := c.keyFlag.isId
    unique := if c.keyFlag.isUnique then some {} else none
    defaultExpr := c.defaultLiteral.map fun literal => TypeRule.defaultExpr literal type
    nativeType := TypeRule.nativeType? c.sqlType }

end Field

namespace Table

/-- The references of a table, those of one constraint together. -/
def groupedForeignKeys (t : Table) : List (String × List ForeignKey) :=
  grouped (t.foreignKeys.map fun k => (k.constraintName, k))

/-- A column that is unknown or holds null. -/
def mayBeNull (t : Table) (column : String) : Bool :=
  match t.column? column with
  | some c => c.nullable
  | none => true

/-- The name of a relation field: the table it leads to, followed by its own columns where that
name is taken. -/
def relationFieldName (referenced : String) (columns taken : List String) : String :=
  if referenced ∈ taken then referenced ++ "_" ++ "_".intercalate columns else referenced

/-- The field of one constraint. -/
def relationField (t : Table) (taken : List String) (constraint : String)
    (keys : List ForeignKey) : Field :=
  let columns := keys.map (·.column)
  let referenced := (keys.head?.map (·.referencedTable)).getD ""
  let nullable := columns.any t.mayBeNull
  { name := relationFieldName referenced columns taken
    type := referenced ++ (if nullable then TypeRule.optionalMarker else "")
    isRequired := !nullable
    relation := some {
      mapName := some constraint
      fields := some columns
      references := some (keys.map (·.referencedColumn)) } }

/-- The fields of constraints, each name counting as taken for those that follow. -/
def relationFieldsFrom (t : Table) (taken : List String) :
    List (String × List ForeignKey) → List Field
  | [] => []
  | (constraint, keys) :: rest =>
    let f := t.relationField taken constraint keys
    f :: relationFieldsFrom t (taken ++ [f.name]) rest

/-- One field for each constraint that refers to another table. -/
def relationFields (t : Table) (taken : List String) : List Field :=
  t.relationFieldsFrom taken t.groupedForeignKeys

/-- Makes the field of one constraint: its relation, and then the field itself, are checked. -/
def makeRelationField (t : Table) (taken : List String) (constraint : String)
    (keys : List ForeignKey) : Except Fault Field := do
  let relation ← Relation.ofKey (keys.map (·.column)) (keys.map (·.referencedColumn))
    (some constraint) none none
  Field.make { t.relationField taken constraint keys with relation := some relation }

/-- Makes the fields of constraints, each name counting as taken for those that follow. -/
def makeRelationFieldsFrom (t : Table) (taken : List String) :
    List (String × List ForeignKey) → Except Fault (List Field)
  | [] => return []
  | (constraint, keys) :: rest => do
    let f ← t.makeRelationField taken constraint keys
    return f :: (← makeRelationFieldsFrom t (taken ++ [f.name]) rest)

/-- Makes one field for each constraint that refers to another table. -/
def makeRelationFields (t : Table) (taken : List String) : Except Fault (List Field) :=
  t.makeRelationFieldsFrom taken t.groupedForeignKeys

end Table

namespace Model

/-- Two spaces in front of each directive. -/
def directiveIndent : String := "  "

/-- The directive of a key of several columns. -/
def idDirective (names : List String) : String := s!"{directiveIndent}@@id([{commaList names}])"

/-- The directive of a unique constraint of several columns. -/
def uniqueDirective (k : UniqueComposite) : String :=
  s!"{directiveIndent}@@unique([{commaList k.columns}], map: \"{k.constraintName}\")"

/-- The model of a table with given fields. Columns of a key of several columns are not unique one by
one. -/
def ofFields (t : Table) (fields : List Field) : Model :=
  let keyNames := t.primaryKeyColumns
  let several := 1 < keyNames.length
  Model.recomputeWidths {
    name := t.name
    fields :=
      if several then fields.map fun f => if f.isId then { f with unique := none } else f
      else fields
    directives := (if several then [idDirective keyNames] else [])
      ++ (t.uniqueComposites.filter (·.isComposite)).map uniqueDirective }

/-- The model of a table. -/
def ofTable (t : Table) : Model :=
  let columns := t.columns.map Field.ofColumn
  ofFields t (columns ++ t.relationFields (columns.map (·.name)))

/-- Makes the model of a table: its name, and each of its fields in their order, are checked. -/
def make (t : Table) : Except Fault Model := do
  let _ ← Model.empty t.name
  let columns ← t.columns.mapM fun c => (Field.ofColumn c).make
  let relations ← t.makeRelationFields (columns.map (·.name))
  return ofFields t (columns ++ relations)

/-- What is noted while the model of a table is built. -/
def ofTableNotes (t : Table) : List Note :=
  let m := ofTable t
  (t.columns.flatMap fun c => TypeRule.nativeNotes c.sqlType)
    ++ [⟨.debug, "mysqltranslate.builder",
      s!"Built model '{m.name}': {m.fields.length} fields, {m.directives.length} directives."⟩]

end Model

namespace Schema

/-- The schema of tables, one model for each in their order. -/
def ofTables (tables : List Table) (generator : Generator := {}) (datasource : Datasource := {}) :
    Schema :=
  { generator := generator, datasource := datasource, models := tables.map Model.ofTable }

/-- What is noted while the schema of tables is built. -/
def ofTablesNotes (tables : List Table) : List Note :=
  tables.flatMap Model.ofTableNotes
    ++ [⟨.info, "mysqltranslate.builder",
      s!"Built Prisma schema with {tables.length} model(s)."⟩]

end Schema

end CatalogSync
