import CatalogSync.Room
import CatalogSync.Schema.Basic
import CatalogSync.Text.Split
import CatalogSync.Text.Blank

/-!
The text of a schema. Within a model the names and the types are filled up to the widths of the
model, so that the attributes of all its fields start in one column. Attributes come in a fixed
order: key, unique, default, native type, relation. A field marked as key shows it only where it is
the one field so marked; a key of several fields is a directive of its own. `render` gives the text
under all widths, `text` only under widths that texts can have.
-/

namespace CatalogSync

/-- Two spaces in front of each field. -/
def fieldIndent : List Char := [' ', ' ']

namespace Generator

def render (g : Generator) : List Char :=
  "generator ".toList ++ g.name.toList ++ " \x7b\n  provider = \"".toList ++ g.provider.toList
    ++ "\"\n\x7d".toList

end Generator

namespace Datasource

/-- The address of the database is left to the environment. -/
def address : String := "env(\"DATABASE_URL\")"

def render (d : Datasource) : List Char :=
  "datasource ".toList ++ d.name.toList ++ " \x7b\n  provider = \"".toList ++ d.provider.toList
    ++ "\"\n  url      = ".toList ++ address.toList ++ "\n\x7d".toList

end Datasource

namespace UniqueFlag

def render (u : UniqueFlag) : List Char :=
  match u.mapName with
  | none => "@unique".toList
  | some name => "@unique(map: \"".toList ++ name.toList ++ "\")".toList

end UniqueFlag

namespace Relation

/-- Names in brackets. -/
def renderList (items : List String) : List Char :=
  '[' :: Text.joined [',', ' '] (items.map (·.toList)) ++ [']']

/-- The parts that are present, in their order. -/
def renderParts (r : Relation) : List (List Char) :=
  (r.fields.map fun names => "fields: ".toList ++ renderList names).toList
    ++ (r.references.map fun names => "references: ".toList ++ renderList names).toList
    ++ (r.mapName.map fun name => "map: \"".toList ++ name.toList ++ ['"']).toList
    ++ (r.onDelete.map fun action => "onDelete: ".toList ++ action.toList).toList
    ++ (r.onUpdate.map fun action => "onUpdate: ".toList ++ action.toList).toList

def render (r : Relation) : List Char :=
  "@relation(".toList ++ Text.joined [',', ' '] r.renderParts ++ [')']

end Relation

namespace Field

/-- The attributes of a field of a model with `ids` key fields, in their order. -/
def renderAttributes (f : Field) (ids : Nat) : List (List Char) :=
  (if f.isId ∧ ids = 1 then ["@id".toList] else [])
    ++ (f.unique.map UniqueFlag.render).toList
    ++ (f.defaultExpr.map fun e => "@default(".toList ++ e.toList ++ [')']).toList
    ++ (f.nativeType.map fun t => "@db.".toList ++ t.toList).toList
    ++ (f.relation.map Relation.render).toList

/-- The type of a field and its attributes; a type that none follow is not filled up. -/
def renderTail (f : Field) (typeWidth ids : Nat) : List Char :=
  match f.renderAttributes ids with
  | [] => f.type.toList
  | attributes => Text.padRight typeWidth f.type.toList ++ ' ' :: Text.joined [' '] attributes

/-- The line of a field, without its indentation. -/
def render (f : Field) (nameWidth typeWidth ids : Nat) : List Char :=
  Text.trimRight (Text.padRight nameWidth f.name.toList ++ ' ' :: f.renderTail typeWidth ids)

end Field

/-- What keeps a text from being filled up to a width: more characters than words of 64 bits can
count, or than memory holds. -/
def widthFault? [Room] (width : Int) : Option Fault :=
  if !Record.isWord width then some .widthTooLarge
  else if (Room.width : Int) ≤ width then some .outOfMemory
  else none

namespace Field

/-- The line of a field under widths that texts can have; a negative width fills nothing up. -/
def text [Room] (f : Field) (nameWidth typeWidth : Int) (ids : Nat) : Except Fault (List Char) :=
  match widthFault? nameWidth <|> widthFault? typeWidth with
  | some e => .error e
  | none => .ok (f.render nameWidth.toNat typeWidth.toNat ids)

end Field

namespace Model

/-- The lines of a model between its header and its closing brace. -/
def renderBody (m : Model) : List (List Char) :=
  (m.fields.map fun f => fieldIndent ++ f.render m.nameWidth m.typeWidth m.idFieldCount)
    ++ if m.directives = [] then [] else [] :: m.directives.map (·.toList)

def render (m : Model) : List Char :=
  Text.joined ['\n'] (("model ".toList ++ m.name.toList ++ [' ', '{']) :: m.renderBody ++ [['}']])
    ++ ['\n']

/-- What keeps the fields of a model from being filled up to its widths. -/
def widthFault? [Room] (m : Model) : Option Fault :=
  if m.fields = [] then none
  else CatalogSync.widthFault? m.nameWidth <|> CatalogSync.widthFault? m.typeWidth

/-- The text of a model under widths that texts can have. -/
def text [Room] (m : Model) : Except Fault (List Char) :=
  match m.widthFault? with
  | some e => .error e
  | none => .ok m.render

end Model

namespace Schema

def render (s : Schema) : List Char :=
  s.generator.render ++ ['\n', '\n'] ++ s.datasource.render ++ ['\n', '\n']
    ++ s.models.flatMap fun m => m.render ++ ['\n']

/-- The text of a schema whose models have widths that texts can have. -/
def text [Room] (s : Schema) : Except Fault (List Char) :=
  match s.models.findSome? (·.widthFault?) with
  | some e => .error e
  | none => .ok s.render

/-- What is noted when a schema has been rendered. -/
def renderNotes (s : Schema) : List Note :=
  [⟨.debug, "mysqltranslate.serializer",
    s!"Rendered schema: {s.models.length} model(s), {s.render.length} characters."⟩]

end Schema

end CatalogSync
