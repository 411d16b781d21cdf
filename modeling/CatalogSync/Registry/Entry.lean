import CatalogSync.Catalog.Encode
import CatalogSync.Output.Format
import CatalogSync.Record.Decode

/-!
Databases that are registered by name: the address of each, and the files bound to it, at most one
to a format as far as `DatabaseEntry.bind` goes.
-/

namespace CatalogSync

/-- A file bound to a database. -/
structure DiskMapping where
  format : Format
  path : String
deriving DecidableEq, Repr

/-- A registered database. -/
structure DatabaseEntry where
  name : String
  url : LooseText
  mappings : List DiskMapping := []
deriving DecidableEq, Repr

namespace DiskMapping

def decoder : Record.Decoder DiskMapping :=
  Record.extensible fun members =>
    DiskMapping.mk <$> Record.required members "format" (Record.choice Format.ofWord?)
      <*> Record.required members "path" Record.someText

def toJson (m : DiskMapping) : Json :=
  .obj [("format", .str m.format.word), ("path", .str m.path)]

/-- The line that shows a mapping. -/
def line (m : DiskMapping) : String :=
  "  " ++ String.ofList (Text.padRight 7 m.format.word.toList) ++ " → " ++ m.path

end DiskMapping

namespace DatabaseEntry

def decoder : Record.Decoder DatabaseEntry :=
  Record.extensible fun members =>
    DatabaseEntry.mk <$> Record.required members "name" Record.someText
      <*> Record.required members "db_url" Record.looseText
      <*> Record.optional members "disk_mappings" [] (Record.list DiskMapping.decoder)

def toJson (e : DatabaseEntry) : Json :=
  .obj [("name", .str e.name), ("db_url", .str e.url),
    ("disk_mappings", .arr (e.mappings.map (·.toJson)))]

/-- The file of a format. -/
def mapping? (e : DatabaseEntry) (f : Format) : Option DiskMapping :=
  e.mappings.find? (·.format = f)

/-- Sets the path of the first mapping of a format; a new mapping comes last. -/
def rebind (f : Format) (path : String) : List DiskMapping → List DiskMapping
  | [] => [⟨f, path⟩]
  | m :: rest => if m.format = f then { m with path := path } :: rest else m :: rebind f path rest

/-- Binds a file to a format, in the place of the one that is bound already; the path must not be
empty. -/
def bind (e : DatabaseEntry) (f : Format) (path : LooseText) : Except Fault DatabaseEntry :=
  ((Record.checked "path" Record.someText path).map fun path =>
    { e with mappings := rebind f path e.mappings }).toExcept .diskMapping

/-- The lines that show an entry: its name and address, then its files. -/
def display (e : DatabaseEntry) : LooseText :=
  let files := if e.mappings = [] then ["  (no output files)"] else e.mappings.map (·.line)
  .text (e.name ++ "  (") ++ e.url ++ .text ("\n".intercalate (")" :: files))

end DatabaseEntry

end CatalogSync
