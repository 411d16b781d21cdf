import CatalogSync.Catalog.Table

/-!
Catalog records as JSON values. Every field is written, absent ones as null, so that the decoder of
a record reads its value back.
-/

namespace CatalogSync

/-- An optional value, null where it is absent. -/
def Json.ofOption {α : Type} (encode : α → Json) (a : Option α) : Json :=
  (a.map encode).getD .null

/-- An optional text, null where it is absent. -/
def Json.ofText? (s : Option String) : Json := Json.ofOption (fun s => .str (.text s)) s

/-- Texts in a row. -/
def Json.ofTexts (items : List String) : Json := .arr (items.map fun s => .str (.text s))

def Column.toJson (c : Column) : Json :=
  .obj [("field", .str c.field), ("sql_type", .str c.sqlType), ("nullable", .bool c.nullable),
    ("key_flag", .str c.keyFlag.word), ("default_literal", Json.ofText? c.defaultLiteral),
    ("extra", .str c.extra)]

def ForeignKey.toJson (k : ForeignKey) : Json :=
  .obj [("kind", .str "foreign"), ("constraint_name", .str k.constraintName),
    ("column", .str k.column), ("referenced_table", .str k.referencedTable),
    ("referenced_column", .str k.referencedColumn)]

def UniqueComposite.toJson (k : UniqueComposite) : Json :=
  .obj [("kind", .str "unique"), ("constraint_name", .str k.constraintName),
    ("columns", Json.ofTexts k.columns)]

def Key.toJson : Key → Json
  | .foreign k => k.toJson
  | .unique k => k.toJson

def ConstraintRow.toJson (r : ConstraintRow) : Json :=
  let int : Option Int → Json := Json.ofOption .int
  .obj ((names.map .text).zip
    [Json.ofText? r.constraintName, Json.ofText? r.constraintType, Json.ofText? r.columnName,
      int r.ordinalPosition, Json.ofText? r.referencedTableName,
      Json.ofText? r.referencedColumnName, Json.ofText? r.indexName, int r.seqInIndex,
      int r.cardinality, Json.ofText? r.indexType])

def Table.toJson (t : Table) : Json :=
  .obj [("name", .str t.name), ("columns", .arr (t.columns.map (·.toJson))),
    ("keys", .arr (t.keys.map (·.toJson)))]

def TableReport.toJson (r : TableReport) : Json :=
  .obj [("table", .str r.table), ("error", .str r.error)]

end CatalogSync
