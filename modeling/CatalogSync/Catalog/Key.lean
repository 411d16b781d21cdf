import CatalogSync.Catalog.Column

/-!
Keys of a table. The catalog delivers constraints one column to a row, mixed with rows of index
statistics. `Key.ofRows` collects the rows of each unique constraint into one key, and makes one
key of each row that refers to another table.
-/

namespace CatalogSync

/-- One column pair of a constraint that refers to another table. -/
structure ForeignKey where
  constraintName : String
  column : String
  referencedTable : String
  referencedColumn : String
deriving DecidableEq, Repr

/-- A unique constraint with all its columns. -/
structure UniqueComposite where
  constraintName : String
  columns : List String
deriving DecidableEq, Repr

inductive Key where
  | foreign (key : ForeignKey)
  | unique (key : UniqueComposite)
deriving DecidableEq, Repr

namespace ForeignKey

def decoder : Record.Decoder ForeignKey :=
  Record.closed ["kind", "constraint_name", "column", "referenced_table", "referenced_column"]
    fun members =>
      (fun _ => ForeignKey.mk) <$> Record.optional members "kind" () (Record.literal "foreign")
        <*> Record.required members "constraint_name" Record.someText
        <*> Record.required members "column" Record.someText
        <*> Record.required members "referenced_table" Record.someText
        <*> Record.required members "referenced_column" Record.someText

/-- A key whose four names are checked to be not empty. -/
def make (k : ForeignKey) : Except Fault ForeignKey :=
  ((fun _ _ _ _ => k) <$> Record.checked "constraint_name" Record.someText k.constraintName
    <*> Record.checked "column" Record.someText k.column
    <*> Record.checked "referenced_table" Record.someText k.referencedTable
    <*> Record.checked "referenced_column" Record.someText k.referencedColumn).toExcept .foreignKey

def summary (k : ForeignKey) : String :=
  s!"<ForeignKey {k.constraintName}: {k.column} → {k.referencedTable}.{k.referencedColumn}>"

end ForeignKey

namespace UniqueComposite

def decoder : Record.Decoder UniqueComposite :=
  Record.closed ["kind", "constraint_name", "columns"] fun members =>
    (fun _ => UniqueComposite.mk) <$> Record.optional members "kind" () (Record.literal "unique")
      <*> Record.required members "constraint_name" Record.someText
      <*> Record.required members "columns" (Record.someList Record.text)

/-- A key whose name and columns are checked to be not empty. -/
def make (k : UniqueComposite) : Except Fault UniqueComposite :=
  ((fun _ _ => k) <$> Record.checked "constraint_name" Record.someText k.constraintName
    <*> (Record.someItems k.columns).under (.name "columns")).toExcept .uniqueComposite

/-- The constraint spans more than one column. -/
def isComposite (k : UniqueComposite) : Bool := 1 < k.columns.length

end UniqueComposite

/-- A key of either kind; where neither fits, the faults of both are reported. -/
def Key.decoder : Record.Decoder Key := fun j =>
  match ForeignKey.decoder j, UniqueComposite.decoder j with
  | .valid k, _ => .valid (.foreign k)
  | _, .valid k => .valid (.unique k)
  | .invalid a, .invalid b =>
    .invalid (a.map (·.under (.name "ForeignKey")) ++ b.map (·.under (.name "UniqueComposite")))

/-- One row of constraints and index statistics. Rows of statistics name no constraint, rows of
constraints name no index. -/
structure ConstraintRow where
  constraintName : Option String := none
  constraintType : Option String := none
  columnName : Option String := none
  ordinalPosition : Option Int := none
  referencedTableName : Option String := none
  referencedColumnName : Option String := none
  indexName : Option String := none
  seqInIndex : Option Int := none
  cardinality : Option Int := none
  indexType : Option String := none
deriving DecidableEq, Repr

namespace ConstraintRow

/-- The names of the cells of a row, in their order. -/
def names : List String :=
  ["constraint_name", "constraint_type", "column_name", "ordinal_position",
    "referenced_table_name", "referenced_column_name", "index_name", "seq_in_index",
    "cardinality", "index_type"]

def decoder : Record.Decoder ConstraintRow :=
  Record.closed names fun members =>
    let text (name : String) : Validated (Option String) :=
      Record.optional members name none (Record.nullable Record.text)
    let int (name : String) : Validated (Option Int) :=
      Record.optional members name none (Record.nullable Record.int)
    ConstraintRow.mk <$> text "constraint_name" <*> text "constraint_type" <*> text "column_name"
      <*> int "ordinal_position" <*> text "referenced_table_name"
      <*> text "referenced_column_name" <*> text "index_name" <*> int "seq_in_index"
      <*> int "cardinality" <*> text "index_type"

/-- A cell as a value to be checked, bytes read as text. -/
def cellValue : Cell → Except Fault Json
  | .null => .ok .null
  | .bool b => .ok (.bool b)
  | .int i => .ok (.int i)
  | .float x => .ok (.float x)
  | .text s => .ok (.str s)
  | .bytes b =>
    match Text.decode b with
    | .ok s => .ok (.str (String.ofList s))
    | .error e => .error (.encoding e)

/-- Reads a row; missing cells at its end are null and further cells are passed over. -/
def ofRow (row : Row) : Except Fault ConstraintRow := do
  let values ← (row.take names.length).mapM cellValue
  (decoder (.obj ((names.map .text).zip values))).toExcept .constraintRow

/-- The row names both ends of a reference. -/
def isForeign (r : ConstraintRow) : Bool :=
  r.constraintName.isSome && r.columnName.isSome && r.referencedTableName.isSome
    && r.referencedColumnName.isSome

/-- The row belongs to a unique constraint. -/
def isUnique (r : ConstraintRow) : Bool :=
  Text.upper (r.constraintType.getD "").toList = "UNIQUE".toList

/-- The unique constraint and the column that a row names, where it names both. -/
def uniquePair? (r : ConstraintRow) : Option (String × String) :=
  match r.constraintName, r.columnName with
  | some name, some column =>
    if r.isUnique ∧ name ≠ "" ∧ column ≠ "" then some (name, column) else none
  | _, _ => none

/-- The reference that a row names. -/
def foreignKey? (r : ConstraintRow) : Option ForeignKey :=
  match r.constraintName, r.columnName, r.referencedTableName, r.referencedColumnName with
  | some name, some column, some table, some target => some ⟨name, column, table, target⟩
  | _, _, _, _ => none

end ConstraintRow

/-- Adds a value to the group of a name, a new group coming last. -/
def addToGroup {α : Type} (name : String) (value : α) :
    List (String × List α) → List (String × List α)
  | [] => [(name, [value])]
  | (n, values) :: rest =>
    if n = name then (n, values ++ [value]) :: rest
    else (n, values) :: addToGroup name value rest

/-- Values grouped by name: groups in the order in which their names first come, values in their
own order. -/
def grouped {α : Type} (pairs : List (String × α)) : List (String × List α) :=
  pairs.foldl (fun groups p => addToGroup p.1 p.2 groups) []

namespace Key

/-- The unique constraints of a list of rows. -/
def uniqueOfRows (rows : List ConstraintRow) : List UniqueComposite :=
  (grouped (rows.filterMap (·.uniquePair?))).map fun g => ⟨g.1, g.2⟩

/-- The keys of a list of rows: the unique constraints first, then the references in row order. -/
def ofRows (rows : List ConstraintRow) : Except Fault (List Key) := do
  let unique ← (uniqueOfRows rows).mapM UniqueComposite.make
  let foreign ← (rows.filterMap (·.foreignKey?)).mapM ForeignKey.make
  return unique.map .unique ++ foreign.map .foreign

end Key

end CatalogSync
