import CatalogSync.Json.Reader
import CatalogSync.Json.Writer
import CatalogSync.Output.Format
import CatalogSync.Schema.Build
import CatalogSync.Schema.Check
import CatalogSync.Schema.Render

/-!
What a file of each format holds: a JSON value, or a schema. Both are made from the tables of a
catalog, written as text, and read back from text. A JSON text that is malformed, or that holds
null, counts as no content.
-/

namespace CatalogSync

/-- What a file of a format holds. -/
abbrev Format.Content : Format → Type
  | .json => Json
  | .prisma => Schema

/-- The descriptions of a table's columns by name. -/
def Table.toDescriptions (t : Table) : Json :=
  Json.ofMembers (t.columns.map fun c => (c.field, .str c.describe))

/-- The descriptions of the columns of tables, by table and column. -/
def Json.ofTables (tables : List Table) : Json :=
  .obj [("tables", Json.ofMembers (tables.map fun t => (t.name, t.toDescriptions)))]

namespace Content

variable [Room]

/-- The dotted name under which work on contents writes its notes. -/
def source : String := "mysqltranslate.translators"

/-- The content of a file for the tables of a catalog. -/
def ofTables (generator : Generator) (datasource : Datasource) (tables : List Table) :
    (f : Format) → f.Content
  | .json => Json.ofTables tables
  | .prisma => Schema.ofTables tables generator datasource

/-- What is noted while a content is made. -/
def ofTablesNotes (tables : List Table) : Format → List Note
  | .json => []
  | .prisma => Schema.ofTablesNotes tables

/-- The text of a content. -/
def render : {f : Format} → f.Content → List Char
  | .json, value => Json.render value
  | .prisma, value => Schema.render value

/-- The texts in a content in which halves of pairs may stand, in the order in which they are
written. -/
def texts : {f : Format} → f.Content → List LooseText
  | .json, value => value.texts
  | .prisma, _ => []

/-- The content with a character in the place of each half. -/
def shownBy (mark : Char) : {f : Format} → f.Content → f.Content
  | .json, value => value.shownBy mark
  | .prisma, value => value

/-- What is noted when a content has been written as text. -/
def renderNotes : {f : Format} → f.Content → List Note
  | .json, _ => []
  | .prisma, value => Schema.renderNotes value

/-- Reads a content, where a text holds one. -/
def parse : (f : Format) → List Char → Except Fault (Option f.Content)
  | .json, text =>
    match Json.read text with
    | .ok .null => .ok none
    | .ok value => .ok (some value)
    | .error .malformed => .ok none
    | .error (.longInteger digits) => .error (.longInteger digits)
    | .error (.tooDeep innermost) => .error (.tooDeep innermost.reading)
  | .prisma, text => (Schema.parse text).map some

/-- What is noted while the text of a file is read. -/
def parseNotes (path : Path) : Format → List Char → List Note
  | .json, text =>
    match Json.read text with
    | .error .malformed => [⟨.warning, source,
      s!"Could not decode JSON in {path.toString}, skipping load: {Fault.openWording}"⟩]
    | _ => []
  | .prisma, text => Schema.parseNotes text

/-- What is noted while a content that was made for a file is checked. -/
def checkNotes (path : Path) : {f : Format} → f.Content → List Note
  | .json, _ => []
  | .prisma, value =>
    Schema.checkNotes value ++ value.issues.map fun issue =>
      ⟨.warning, source, s!"Schema check for {path.toString}: {issue.line}"⟩

end Content

end CatalogSync
