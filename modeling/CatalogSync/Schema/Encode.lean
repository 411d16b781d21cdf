import CatalogSync.Catalog.Encode
import CatalogSync.Schema.Basic

/-!
Schema records as JSON values, every field written.
-/

namespace CatalogSync

def Generator.toJson (g : Generator) : Json :=
  .obj [("name", .str g.name), ("provider", .str g.provider)]

def Datasource.toJson (d : Datasource) : Json :=
  .obj [("name", .str d.name), ("provider", .str d.provider)]

def UniqueFlag.toJson (u : UniqueFlag) : Json := .obj [("map_name", Json.ofText? u.mapName)]

def Relation.toJson (r : Relation) : Json :=
  let names : Option (List String) → Json := Json.ofOption Json.ofTexts
  .obj [("map_name", Json.ofText? r.mapName), ("fields", names r.fields),
    ("references", names r.references), ("on_update", Json.ofText? r.onUpdate),
    ("on_delete", Json.ofText? r.onDelete)]

def Field.toJson (f : Field) : Json :=
  .obj [("name", .str f.name), ("type", .str f.type), ("is_array", .bool f.isArray),
    ("is_required", .bool f.isRequired), ("is_id", .bool f.isId),
    ("unique", Json.ofOption UniqueFlag.toJson f.unique),
    ("default_expr", Json.ofText? f.defaultExpr),
    ("db_type_annotation", Json.ofText? f.nativeType),
    ("relation", Json.ofOption Relation.toJson f.relation)]

def Model.toJson (m : Model) : Json :=
  .obj [("name", .str m.name), ("fields", .arr (m.fields.map (·.toJson))),
    ("directives", Json.ofTexts m.directives), ("name_column_width", .int m.nameWidth),
    ("type_column_width", .int m.typeWidth)]

def Schema.toJson (s : Schema) : Json :=
  .obj [("generator", s.generator.toJson), ("datasource", s.datasource.toJson),
    ("models", .arr (s.models.map (·.toJson)))]

end CatalogSync
