import CatalogSync.Catalog.Cell
import CatalogSync.Fault
import CatalogSync.Record.Decode
import CatalogSync.Text.Casing

/-!
Columns of a catalog table, as the six cells of a description row give them.
-/

namespace CatalogSync

/-- The part of a column in keys. -/
inductive KeyFlag where
  | none
  | primary
  | unique
  | multiple
deriving DecidableEq, Repr

namespace KeyFlag

def word : KeyFlag → String
  | .none => ""
  | .primary => "PRI"
  | .unique => "UNI"
  | .multiple => "MUL"

def ofWord? (s : String) : Option KeyFlag :=
  [KeyFlag.none, .primary, .unique, .multiple].find? (·.word = s)

/-- The flag that a catalog text gives in any letter case and with white space around it. -/
def ofCatalog? (raw : String) : Option KeyFlag :=
  ofWord? (String.ofList (Text.upper (Text.trim raw.toList)))

/-- The flag of a catalog text; an unknown one counts as none. -/
def ofCatalog (raw : String) : KeyFlag := (ofCatalog? raw).getD .none

/-- What is noted about a catalog text that is no flag. -/
def catalogNotes (raw : String) : List Note :=
  if (ofCatalog? raw).isSome then []
  else [⟨.debug, "mysqltranslate.models",
    s!"Unknown catalog key flag {Text.quotedString raw}, treating as none."⟩]

/-- A column with this flag holds no value twice. -/
def isUnique (k : KeyFlag) : Bool := k = .primary || k = .unique

/-- A column with this flag belongs to the primary key. -/
def isId (k : KeyFlag) : Bool := k = .primary

theorem ofWord?_word (k : KeyFlag) : ofWord? k.word = some k := by cases k <;> decide

end KeyFlag

/-- One column: its name, its type as the catalog writes it, and what else a row tells. -/
structure Column where
  field : String
  sqlType : String
  nullable : Bool := true
  keyFlag : KeyFlag := .none
  defaultLiteral : Option String := none
  extra : String := ""
deriving DecidableEq, Repr

namespace Column

def decoder : Record.Decoder Column :=
  Record.closed ["field", "sql_type", "nullable", "key_flag", "default_literal", "extra"]
    fun members =>
      Column.mk <$> Record.required members "field" Record.someText
        <*> Record.required members "sql_type" Record.someText
        <*> Record.optional members "nullable" true Record.bool
        <*> Record.optional members "key_flag" .none (Record.choice KeyFlag.ofWord?)
        <*> Record.optional members "default_literal" none (Record.nullable Record.text)
        <*> Record.optional members "extra" "" Record.text

/-- A column whose name and type are checked to be not empty. -/
def make (c : Column) : Except Fault Column :=
  ((fun _ _ => c) <$> Record.checked "field" Record.someText c.field
    <*> Record.checked "sql_type" Record.someText c.sqlType).toExcept .column

/-- The text of a cell, bytes that are no text being a fault. -/
def cellText (c : Cell) : Except Fault String :=
  match c.text? with
  | .ok s => .ok s
  | .error e => .error (.encoding e)

/-- Reads a description row: name, type, nullability, key flag, default and extra; further cells
are passed over. -/
def ofRow : Row → Except Fault Column
  | field :: sqlType :: nullability :: key :: default :: extra :: _ => do
    let sqlType ← cellText sqlType
    let key ← cellText key
    let default ← if default = .null then pure none else some <$> cellText default
    let extra ← cellText extra
    make {
      field := field.display
      sqlType := sqlType
      nullable := String.ofList (Text.upper nullability.display.toList) = "YES"
      keyFlag := KeyFlag.ofCatalog key
      defaultLiteral := default
      extra := extra }
  | row => .error (.tooFewCells row.length)

/-- What is noted while a description row is read. -/
def rowNotes : Row → List Note
  | _ :: sqlType :: _ :: key :: _ :: _ :: _ =>
    match sqlType.text?, key.text? with
    | .ok _, .ok key => KeyFlag.catalogNotes key
    | _, _ => []
  | _ => []

def isPrimary (c : Column) : Bool := c.keyFlag = .primary

/-- The catalog says that the column counts up by itself. -/
def isAutoIncrement (c : Column) : Bool :=
  Text.contains "auto_increment".toList (Text.lower c.extra.toList)

/-- The short form shown in reports. -/
def summary (c : Column) : String :=
  let key := if c.keyFlag.word = "" then "" else " " ++ c.keyFlag.word
  let null := if c.nullable then "NULL" else "NOT NULL"
  s!"<Column {c.field} {c.sqlType}{key} {null}>"

/-- The type, the key flag where there is one, and what the column demands. -/
def describe (c : Column) : String :=
  c.sqlType ++ (if c.keyFlag.word = "" then "" else " " ++ c.keyFlag.word)
    ++ (if c.nullable then "" else " NOT NULL")
    ++ (if c.isAutoIncrement then " AUTO_INCREMENT" else "")

end Column

end CatalogSync
