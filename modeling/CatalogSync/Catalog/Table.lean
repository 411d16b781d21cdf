import CatalogSync.Catalog.Key

/-!
Tables of a catalog. A table has a name, at least one column, no two columns of one name, and the
keys collected from its constraint rows.
-/

namespace CatalogSync

structure Table where
  name : String
  columns : List Column
  keys : List Key := []
deriving DecidableEq, Repr

/-- The values that occur more than once, each once, in the order of their texts. -/
def repeatedNames (names : List String) : List String :=
  ((names.filter fun n => 1 < names.count n).eraseDups).mergeSort (· ≤ ·)

namespace Table

/-- Refuses columns that share a name. -/
def distinctColumns (columns : List Column) : Validated (List Column) :=
  let names := columns.map (·.field)
  if repeatedNames names = [] then .valid columns
  else .fault (.rule s!"Duplicate column names: {Text.quotedList (repeatedNames names)}")

/-- Refuses columns that are none, or that share a name. -/
def checkedColumns (columns : List Column) : Validated (List Column) :=
  (Record.someItems columns).andThen distinctColumns

/-- Reads columns: a list that is not empty and repeats no name. -/
def columnsDecoder : Record.Decoder (List Column) := fun j =>
  (Record.list Column.decoder j).andThen checkedColumns

def decoder : Record.Decoder Table :=
  Record.closed ["name", "columns", "keys"] fun members =>
    Table.mk <$> Record.required members "name" Record.someText
      <*> Record.required members "columns" columnsDecoder
      <*> Record.optional members "keys" [] (Record.list Key.decoder)

/-- A table of columns that were read before; its name, that it has columns, and their names are
checked. -/
def make (name : String) (columns : List Column) (keys : List Key) : Except Fault Table :=
  ((fun name columns => Table.mk name columns keys)
    <$> Record.checked "name" Record.someText name
    <*> (checkedColumns columns).under (.name "columns")).toExcept .table

def primaryKeyColumns (t : Table) : List String :=
  (t.columns.filter (·.isPrimary)).map (·.field)

def foreignKeys (t : Table) : List ForeignKey :=
  t.keys.filterMap fun
    | .foreign k => some k
    | .unique _ => none

def uniqueComposites (t : Table) : List UniqueComposite :=
  t.keys.filterMap fun
    | .unique k => some k
    | .foreign _ => none

def column? (t : Table) (name : String) : Option Column := t.columns.find? (·.field = name)

def summary (t : Table) : String :=
  s!"<Table {t.name} ({t.columns.length} cols, {t.keys.length} keys)>"

/-- What callers may rely on: names that are not empty and columns of distinct names. -/
def Valid (t : Table) : Prop :=
  t.name ≠ "" ∧ t.columns ≠ [] ∧ (t.columns.map (·.field)).Nodup
    ∧ ∀ c ∈ t.columns, c.field ≠ "" ∧ c.sqlType ≠ ""

end Table

/-- A table that could not be read, and why. -/
structure TableReport where
  table : String
  error : String
deriving DecidableEq, Repr

namespace TableReport

def decoder : Record.Decoder TableReport :=
  Record.closed ["table", "error"] fun members =>
    TableReport.mk <$> Record.required members "table" Record.text
      <*> Record.required members "error" Record.text

def line (r : TableReport) : String := s!"Table: {r.table}, Error: {r.error}"

end TableReport

/-- What was read of a database: its tables, and the tables that were left out because of a
failure. -/
structure Introspection where
  tables : List Table := []
  errors : List TableReport := []
deriving DecidableEq, Repr

namespace Introspection

def decoder : Record.Decoder Introspection :=
  Record.closed ["tables", "errors"] fun members =>
    Introspection.mk <$> Record.optional members "tables" [] (Record.list Table.decoder)
      <*> Record.optional members "errors" [] (Record.list TableReport.decoder)

end Introspection

end CatalogSync
