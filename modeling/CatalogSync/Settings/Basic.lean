import CatalogSync.Catalog.Encode
import CatalogSync.Files.Path
import CatalogSync.Journal
import CatalogSync.Output.Content
import CatalogSync.Record.Decode
import CatalogSync.Text.Casing

/-!
The settings of the program: where the registry is kept, the providers that schema files name, and
how much is noted. Every setting has a default.
-/

namespace CatalogSync

structure Settings where
  storageDir : String := ".data"
  sessionFilename : String := "session.json"
  defaultProvider : LooseText := ({} : Datasource).provider
  generatorProvider : LooseText := ({} : Generator).provider
  logLevel : Level := .warning
deriving DecidableEq, Repr

namespace Settings

/-- The level that a text names in any letter case and with white space around it. -/
def levelOf? (s : String) : Option Level :=
  Level.ofName? (String.ofList (Text.upper (Text.trim s.toList)))

/-- Reads a level. -/
def levelDecoder : Record.Decoder Level := fun j =>
  (Record.looseText j).andThen fun s =>
    match s.text?.bind levelOf? with
    | some l => .valid l
    | none =>
      let known := Text.quotedList (Level.all.map (·.name))
      .fault (.rule (.text s!"log_level must be one of {known}, got '" ++ s ++ .text "'."))

/-- The names of the settings. -/
def names : List String :=
  ["storage_dir", "session_filename", "default_provider", "generator_provider", "log_level"]

/-- Reads the settings that are present. -/
def ofMembers (members : List (LooseText × Json)) : Validated Settings :=
  let standard : Settings := {}
  Settings.mk
    <$> Record.optional members "storage_dir" standard.storageDir Record.someText
    <*> Record.optional members "session_filename" standard.sessionFilename Record.someText
    <*> Record.optional members "default_provider" standard.defaultProvider Record.looseText
    <*> Record.optional members "generator_provider" standard.generatorProvider Record.looseText
    <*> Record.optional members "log_level" standard.logLevel levelDecoder

def decoder : Record.Decoder Settings := Record.closed names ofMembers

def toJson (s : Settings) : Json :=
  .obj [("storage_dir", .str s.storageDir), ("session_filename", .str s.sessionFilename),
    ("default_provider", .str s.defaultProvider),
    ("generator_provider", .str s.generatorProvider), ("log_level", .str s.logLevel.name)]

/-- The file that keeps the registry. -/
def registryPath (s : Settings) : Path :=
  (Path.ofString s.storageDir).join (Path.ofString s.sessionFilename)

def generator (s : Settings) : Generator := { provider := s.generatorProvider.shown }

def datasource (s : Settings) : Datasource := { provider := s.defaultProvider.shown }

/-- The settings, halves of pairs in providers shown by a character. -/
def shownBy (mark : Char) (s : Settings) : Settings :=
  { s with
    defaultProvider := .text (s.defaultProvider.shownBy mark)
    generatorProvider := .text (s.generatorProvider.shownBy mark) }

/-- The texts in the header of a file of a format in which halves of pairs may stand. -/
def headerTexts (s : Settings) : Format → List LooseText
  | .json => []
  | .prisma => [s.generatorProvider, s.defaultProvider]

/-- What keeps a schema file from being written under these settings. -/
def halfFault? (s : Settings) : Option Text.HalfFault :=
  LooseText.halfFault? <| .written (s.headerTexts .prisma) fun mark =>
    let s := s.shownBy mark
    Schema.render { generator := s.generator, datasource := s.datasource }

/-- The variable of the environment that says where the registry is kept. -/
def storageVariable : String := "STORAGE"

/-- The dotted name under which reading settings writes its notes. -/
def source : String := "mysqltranslate.config"

/-- The default settings, with the storage directory that the environment gives; an empty one
counts as none. -/
def ofEnvironment (storage : Option LooseText) : Except Fault Settings :=
  match storage with
  | some dir =>
    if dir = "" then .ok {} else (decoder (.obj [("storage_dir", .str dir)])).toExcept .settings
  | none => .ok {}

/-- What is noted while settings are taken from the environment. -/
def environmentNotes (storage : Option LooseText) : List Note :=
  match storage with
  | some dir =>
    if dir = "" then []
    else [⟨.debug, source, .text s!"Using storage dir from ${storageVariable}: " ++ dir⟩]
  | none => []

end Settings

end CatalogSync
