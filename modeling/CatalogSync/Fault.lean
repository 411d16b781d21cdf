import CatalogSync.Files.Tree
import CatalogSync.Journal
import CatalogSync.Number.Numeral
import CatalogSync.Record.Validated

/-!
Everything that can stop an operation, as causes. The wording of each cause is `Fault.message`.
-/

namespace CatalogSync

/-- The records whose fields are checked when they are made. -/
inductive RecordName where
  | column
  | foreignKey
  | uniqueComposite
  | constraintRow
  | table
  | tableReport
  | introspection
  | generator
  | datasource
  | uniqueFlag
  | relation
  | field
  | model
  | schema
  | diskMapping
  | databaseEntry
  | settings
deriving DecidableEq, Repr

/-- The word by which messages name a record. -/
def RecordName.word : RecordName → String
  | .column => "Column"
  | .foreignKey => "ForeignKey"
  | .uniqueComposite => "UniqueComposite"
  | .constraintRow => "ConstraintRow"
  | .table => "Table"
  | .tableReport => "TableErrorReport"
  | .introspection => "IntrospectionResult"
  | .generator => "Generator"
  | .datasource => "Datasource"
  | .uniqueFlag => "UniqueFlag"
  | .relation => "Relation"
  | .field => "Field"
  | .model => "Model"
  | .schema => "PrismaSchema"
  | .diskMapping => "DiskMapping"
  | .databaseEntry => "DatabaseEntry"
  | .settings => "TranslateConfig"

inductive Fault where
  /-- A record whose fields break its rules. -/
  | record (name : RecordName) (faults : List FieldFault)
  /-- A record computes what was to be set. -/
  | readOnly (kind : RecordName) (name : String)
  /-- What stands under a name that every record has cannot be set. -/
  | notWritable (kind : RecordName) (name : String)
  /-- A value has nothing under a name: a record that lost a field, or a value of a kind that has no
  fields. -/
  | lacking (kind : String) (name : String)
  /-- A value is of a kind that what was to be done with it does not take. -/
  | wrongKind (reason : String)
  /-- A value is of a kind that cannot be laid out in the way of a code letter. -/
  | unknownLayout (code : Char) (kind : String)
  /-- An object has no member of a name. -/
  | absentKey (name : String)
  /-- A text that had to be encoded holds half of a surrogate pair. -/
  | unencodable (fault : Text.HalfFault)
  /-- A column row of the catalog with fewer than six cells. -/
  | tooFewCells (found : Nat)
  /-- A row that names a table has no cell. -/
  | emptyRow
  /-- A catalog cell whose bytes are no text. -/
  | encoding (fault : Text.Utf8Fault)
  | file (fault : FileFault)
  /-- A piece of a relation attribute that starts with no known key. -/
  | unknownRelationKey (piece whole : String)
  /-- A relation without columns and without a name. -/
  | emptyRelation
  /-- A text was to be filled up to a width that no text can have. -/
  | widthTooLarge
  /-- A text was to be filled up to more characters than memory holds. -/
  | outOfMemory
  | unknownFormat (value : String)
  | notJson (path : Path)
  | notYaml (path : Path)
  /-- A registry file holds JSON of another kind than an array. -/
  | notAnArray (path : Path) (kind : String)
  /-- A file holds an integer of more digits than are read. -/
  | longInteger (digits : Nat)
  /-- A file holds values deeper in one another than are read; the text says what was being read. -/
  | tooDeep (doing : String)
  /-- A settings file holds JSON of another kind than an object. -/
  | notAnObject (kind : String)
  /-- A settings file holds YAML of another kind than a mapping. -/
  | notAMapping (kind : String)
  /-- A scalar of a settings file is not the number or the date that it claims to be. -/
  | badScalar (reason : String)
  /-- A scalar of a settings file claims to be a number and has no digits. -/
  | noDigits
  /-- A scalar of a settings file claims to be a truth value and is none. -/
  | noTruth (word : LooseText)
  /-- A scalar of a settings file claims to be a time and has not the form of one. -/
  | noTimestamp
  /-- A collection of a settings file claims to be a time. -/
  | noTextForTime
  /-- An escape of a settings file names a number too large for any code point. -/
  | escapeTooLarge
  /-- A number, or a group of a number of a settings file, counts for more than a floating-point
  number can. -/
  | groupTooLarge
  | settingsRejected (faults : List FieldFault)
  | entryRejected (path : Path) (faults : List FieldFault)
  | settingsMissing (path : LooseText)
  /-- The path of a settings file holds halves of surrogate pairs and is longer than the system takes. -/
  | settingsTooLong (path : LooseText)
  | unknownSource (value : String)
  | noFileBound (database format : String)
  /-- A command was given no format. -/
  | noFormat
  /-- A settings file was asked for without a path. -/
  | noPath
  /-- A bound file could not be read; the text says why. -/
  | unreadable (reason : String)
  | connection (url reason : LooseText)
deriving DecidableEq, Repr

namespace Fault

/-- Stands for the wording of a reader or a check, which this library leaves open. -/
def openWording : String := "<detail>"

def message : Fault → LooseText
  | .record _ _ => openWording
  | .readOnly kind name => s!"property '{name}' of '{kind.word}' object has no setter"
  | .notWritable kind name => s!"attribute '{name}' of '{kind.word}' objects is not writable"
  | .lacking kind name => s!"'{kind}' object has no attribute '{name}'"
  | .wrongKind reason => reason
  | .unknownLayout code kind =>
    s!"Unknown format code '{String.singleton code}' for object of type '{kind}'"
  | .absentKey name => Text.quotedString name
  | .unencodable fault => fault.message
  | .tooFewCells found => s!"not enough values to unpack (expected 6, got {found})"
  | .emptyRow => "tuple index out of range"
  | .encoding fault => fault.message
  | .file fault => fault.message
  | .unknownRelationKey piece whole =>
    s!"Unknown key in relation attribute: '{piece}' (in '{whole}')"
  | .emptyRelation => "A relation needs 'fields'/'references' or a map name; got none."
  | .widthTooLarge => "Python int too large to convert to C ssize_t"
  | .outOfMemory => ""
  | .unknownFormat value => s!"Unsupported format '{value}'. Expected one of: json, prisma."
  | .notJson path => s!"Invalid JSON in {path.toString}: {openWording}"
  | .notYaml path => s!"Invalid YAML in {path.toString}: {openWording}"
  | .notAnArray path kind => s!"Expected a JSON array in {path.toString}, got {kind}."
  | .longInteger digits =>
    s!"Exceeds the limit ({Numeral.maxLength} digits) for integer string conversion: "
      ++ s!"value has {digits} digits; use sys.set_int_max_str_digits() to increase the limit"
  | .tooDeep doing => s!"maximum recursion depth exceeded{doing}"
  | .notAnObject kind => s!"Expected a JSON object at top level, got {kind}."
  | .notAMapping kind => s!"Expected a YAML mapping at top level, got {kind}."
  | .badScalar reason => reason
  | .noDigits => "string index out of range"
  | .noTruth word => String.ofList (Text.quotedLoose word)
  | .noTimestamp => "'NoneType' object has no attribute 'groupdict'"
  | .noTextForTime => "expected string or bytes-like object, got 'list'"
  | .escapeTooLarge => "Python int too large to convert to C int"
  | .groupTooLarge => "int too large to convert to float"
  | .settingsRejected _ => s!"Config validation failed: {openWording}"
  | .entryRejected path _ => s!"Invalid session entry in {path.toString}: {openWording}"
  | .settingsMissing path => .text "Config file not found: " ++ path
  | .settingsTooLong path =>
    let code := OsCode.nameTooLong
    s!"[Errno {code.number}] {code.text}: {String.ofList (Text.quotedLoose path)}"
  | .unknownSource value =>
    s!"Unknown source '{value}'. Expected one of ['database', 'disk', 'both']."
  | .noFileBound database format => s!"Database '{database}' has no {format} file bound."
  | .noFormat => "'list' object has no attribute 'strip'"
  | .noPath => "expected str, bytes or os.PathLike object, not list"
  | .unreadable reason => reason
  | .connection url reason => .text "Could not connect to " ++ url ++ .text ": " ++ reason

/-- The system refused to read or write. -/
def isSystemFault : Fault → Bool
  | .file (.os _ _) => true
  | .unreadable _ => true
  | .settingsMissing _ => true
  | .settingsTooLong _ => true
  | _ => false

/-- A value was not what it should have been. -/
def isValueFault : Fault → Bool
  | .readOnly _ _ => false
  | .notWritable _ _ => false
  | .lacking _ _ => false
  | .wrongKind _ => false
  | .absentKey _ => false
  | .emptyRow => false
  | .noFormat => false
  | .noPath => false
  | .noDigits => false
  | .noTruth _ => false
  | .noTimestamp => false
  | .noTextForTime => false
  | .tooDeep _ => false
  | .widthTooLarge => false
  | .outOfMemory => false
  | .escapeTooLarge => false
  | .groupTooLarge => false
  | .file (.os _ _) => false
  | .file .tooManyLevels => false
  | .unreadable _ => false
  | .settingsMissing _ => false
  | .settingsTooLong _ => false
  | .connection _ _ => false
  | _ => true

/-- A file that was asked for is not there. -/
def isMissingFile : Fault → Bool
  | .file (.os .noEntry _) => true
  | .settingsMissing _ => true
  | _ => false

/-- A database could not be reached. -/
def isConnectionFault : Fault → Bool
  | .connection _ _ => true
  | _ => false

/-- A relation attribute could not be read. -/
def isRelationFault : Fault → Bool
  | .unknownRelationKey _ _ => true
  | _ => false

end Fault

/-- The result of a check, its faults made into one. The wording of a broken rule has to be encoded,
and where that fails, nothing else counts. -/
def Validated.toExceptBy {α : Type} (ofFaults : List FieldFault → Fault) :
    Validated α → Except Fault α
  | .valid a => .ok a
  | .invalid faults =>
    match faults.findSome? (·.kind.halfFault?) with
    | some fault => .error (.unencodable fault)
    | none => .error (ofFaults faults)

/-- The result of a check of a record's fields, a failure naming the record. -/
def Validated.toExcept {α : Type} (name : RecordName) : Validated α → Except Fault α :=
  Validated.toExceptBy (.record name)

theorem Validated.exists_of_toExcept_map {α β : Type} {name : RecordName} {f : α → β}
    {x : Validated α} {b : β} (h : (x.map f).toExcept name = .ok b) :
    ∃ a, x = .valid a ∧ f a = b := by
  cases x with
  | valid a => exact ⟨a, rfl, by simpa [toExcept, toExceptBy, map] using h⟩
  | invalid faults =>
    simp only [toExcept, toExceptBy, map] at h
    split at h <;> cases h

end CatalogSync
