import CatalogSync.Record.Assign
import CatalogSync.Schema.Encode

/-!
The records of a schema as records that may be changed: which fields each of them has, how a value for a
field is read, and what it computes. Beside it, checked records as ones whose fields are not checked.
-/

namespace CatalogSync

open Record

/-- A text stands plain in a record. -/
def Record.plainText : Decoder Unchecked := plainly text fun s => .str (.text s)

/-- A text that is not empty stands plain in a record. -/
def Record.plainName : Decoder Unchecked := plainly someText fun s => .str (.text s)

/-- A text that may be absent stands plain in a record. -/
def Record.plainText? : Decoder Unchecked := plainly (nullable text) Json.ofText?

/-- A truth value stands plain in a record. -/
def Record.plainBool : Decoder Unchecked := plainly bool Json.bool

/-- A width stands plain in a record. -/
def Record.plainWidth : Decoder Unchecked := plainly nat fun n => .int n

namespace Generator

def shape : Shape where
  kind := .generator
  fields := [("name", plainText), ("provider", plainText)]

def unchecked (g : Generator) : Unchecked := .ofObject .generator [] g.toJson

/-- The record with one field set by name; a name that the record does not have is a fault. -/
def assign : Generator → String → Json → Except Fault Generator :=
  Assignable.assign ⟨shape, decoder, toJson⟩

end Generator

namespace Datasource

def shape : Shape where
  kind := .datasource
  fields := [("name", plainText), ("provider", plainText)]

def unchecked (d : Datasource) : Unchecked := .ofObject .datasource [] d.toJson

/-- The record with one field set by name; a name that the record does not have is a fault. -/
def assign : Datasource → String → Json → Except Fault Datasource :=
  Assignable.assign ⟨shape, decoder, toJson⟩

end Datasource

namespace Field

/-- The unchecked record of a field that is written as JSON. -/
def ofWritten : Json → Unchecked :=
  .ofObject .field [("unique", .ofObject .uniqueFlag []), ("relation", .ofObject .relation [])]

def unchecked (f : Field) : Unchecked := ofWritten f.toJson

def shape : Shape where
  kind := .field
  fields := [("name", plainName), ("type", plainName), ("is_array", plainBool),
    ("is_required", plainBool), ("is_id", plainBool),
    ("unique", nested (nullable UniqueFlag.decoder) (Json.ofOption UniqueFlag.toJson)
      (.ofObject .uniqueFlag [])),
    ("default_expr", plainText?), ("db_type_annotation", plainText?),
    ("relation", nested (nullable Relation.decoder) (Json.ofOption Relation.toJson)
      (.ofObject .relation []))]

/-- The record with one field set by name; a name that the record does not have is a fault. -/
def assign : Field → String → Json → Except Fault Field :=
  Assignable.assign ⟨shape, decoder, toJson⟩

end Field

namespace Model

def unchecked (m : Model) : Unchecked :=
  .ofObject .model [("fields", .ofArray Field.ofWritten)] m.toJson

/-- What a model tells of its fields that identify it is computed. -/
def shape : Shape where
  kind := .model
  fields := [("name", plainName),
    ("fields", nested (list Field.decoder) (fun fields => .arr (fields.map (·.toJson)))
      (.ofArray Field.ofWritten)),
    ("directives", plainly (list text) Json.ofTexts),
    ("name_column_width", plainWidth), ("type_column_width", plainWidth)]
  computed := ["id_fields", "id_field_count"]

/-- The record with one field set by name; a name that the record does not have is a fault. -/
def assign : Model → String → Json → Except Fault Model :=
  Assignable.assign ⟨shape, decoder, toJson⟩

end Model

end CatalogSync
