import CatalogSync.Catalog.Table

/-!
Sessions with a database as the program sees them: the statements it hands on to be sent, the outcomes
that come back one after another, and the events of a session in their order.
-/

namespace CatalogSync

/-- The statements that are handed on to be sent to a database. -/
inductive Statement where
  | showTables
  | describe (table : String)
  | constraints (table : String)
deriving DecidableEq, Repr

/-- What a statement brings back: rows, or a failure with a text. -/
inductive Outcome where
  | rows (rows : List Row)
  | failure (reason : String)
deriving DecidableEq, Repr

/-- A database that answers by a script: whether an engine can be made and a connection opened, and
the outcome of each statement in turn. -/
structure Script where
  engineError : Option LooseText := none
  connectError : Option LooseText := none
  outcomes : List Outcome := []
deriving Repr

/-- An event of a session. -/
inductive Event where
  | createEngine (url : LooseText)
  | connect
  | execute (statement : Statement)
  | rollback
  | close
  | dispose
deriving DecidableEq, Repr

/-- The outcome of the next statement; once a script is used up, no rows. -/
def nextOutcome : List Outcome → Outcome × List Outcome
  | [] => (.rows [], [])
  | o :: rest => (o, rest)

/-- A name between backticks, a backtick inside it written twice. -/
def quoteIdentifier (name : String) : String :=
  String.ofList ('\x60' :: name.toList.flatMap double ++ ['\x60'])
where
  double (c : Char) : List Char := if c = '\x60' then [c, c] else [c]

/-- The address that the driver takes: the short scheme is replaced by the one that names it. -/
def normaliseUrl (url : LooseText) : LooseText :=
  match Text.after? "mysql://".toList url.chars with
  | some rest => .text "mysql+pymysql://" ++ url.takeBack rest
  | none => url

/-- The query of declared constraints, primary and check constraints left out, and of index
statistics; its columns are those of a constraint row. -/
def constraintsQuery : String := "
SELECT
    constraint_name,
    constraint_type,
    column_name,
    ordinal_position,
    referenced_table_name,
    referenced_column_name,
    index_name,
    seq_in_index,
    cardinality,
    index_type
FROM (
    SELECT
        TC.CONSTRAINT_NAME AS constraint_name,
        TC.CONSTRAINT_TYPE AS constraint_type,
        KCU.COLUMN_NAME AS column_name,
        KCU.ORDINAL_POSITION AS ordinal_position,
        KCU.REFERENCED_TABLE_NAME AS referenced_table_name,
        KCU.REFERENCED_COLUMN_NAME AS referenced_column_name,
        NULL AS index_name,
        NULL AS seq_in_index,
        NULL AS cardinality,
        NULL AS index_type
    FROM
        INFORMATION_SCHEMA.TABLE_CONSTRAINTS TC
    JOIN
        INFORMATION_SCHEMA.KEY_COLUMN_USAGE KCU
    ON
        TC.CONSTRAINT_NAME = KCU.CONSTRAINT_NAME
        AND TC.TABLE_SCHEMA = KCU.TABLE_SCHEMA
        AND TC.TABLE_NAME = KCU.TABLE_NAME
    JOIN
        INFORMATION_SCHEMA.COLUMNS C
    ON
        KCU.COLUMN_NAME = C.COLUMN_NAME
        AND KCU.TABLE_NAME = C.TABLE_NAME
        AND KCU.TABLE_SCHEMA = C.TABLE_SCHEMA
    WHERE
        TC.TABLE_NAME = :table_name
        AND TC.TABLE_SCHEMA = DATABASE()
        AND TC.CONSTRAINT_TYPE NOT IN ('PRIMARY KEY', 'CHECK')
    UNION ALL
    SELECT
        NULL AS constraint_name,
        NULL AS constraint_type,
        COLUMN_NAME AS column_name,
        SEQ_IN_INDEX AS ordinal_position,
        NULL AS referenced_table_name,
        NULL AS referenced_column_name,
        INDEX_NAME AS index_name,
        SEQ_IN_INDEX AS seq_in_index,
        CARDINALITY AS cardinality,
        INDEX_TYPE AS index_type
    FROM
        INFORMATION_SCHEMA.STATISTICS
    WHERE
        TABLE_NAME = :table_name
        AND TABLE_SCHEMA = DATABASE()
) AS combined_data
ORDER BY
    constraint_name, ordinal_position
"

namespace Statement

/-- The text that a statement is handed on as. It is not yet what is sent: SQLAlchemy's `text` reads
a colon before a name in it as the place of a parameter. -/
def sql : Statement → String
  | .showTables => "SHOW TABLES"
  | .describe table => "DESCRIBE " ++ quoteIdentifier table
  | .constraints _ => constraintsQuery

/-- The table that a statement names by a parameter. -/
def tableName? : Statement → Option String
  | .constraints table => some table
  | _ => none

end Statement

end CatalogSync
