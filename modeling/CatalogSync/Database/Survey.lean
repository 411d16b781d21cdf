import CatalogSync.Database.Session

/-!
Reading the catalog of a database. The tables are listed, then each is described and its
constraints are fetched. A statement that fails leaves its table out and is reported; a table
without columns is left out silently; a row that breaks the rules of its record ends the survey.
-/

namespace CatalogSync

/-- The dotted name under which a survey writes its notes. -/
def surveySource : String := "mysqltranslate.introspector"

/-- Stands in a report for the list of tables itself. -/
def everyTable : String := "All tables"

/-- What a part of a survey brought: tables, reports of tables left out, the events of the session
and the notes, all in their order, and the fault that ended it, where one did. -/
structure Survey where
  tables : List Table := []
  errors : List TableReport := []
  events : List Event := []
  notes : List Note := []
  fault : Option Fault := none
deriving Repr

namespace Survey

/-- One part of a survey after another; nothing comes after a fault. -/
def append (s t : Survey) : Survey :=
  match s.fault with
  | some _ => s
  | none => {
      tables := s.tables ++ t.tables
      errors := s.errors ++ t.errors
      events := s.events ++ t.events
      notes := s.notes ++ t.notes
      fault := t.fault }

instance : Append Survey := ⟨append⟩

/-- A failure that is recovered from: reported, noted, and rolled back. -/
def ofFailure (events : List Event) (notes : List Note) (table reason : String) : Survey :=
  let report : TableReport := ⟨table, reason⟩
  { errors := [report]
    events := events ++ [.rollback]
    notes := notes ++
      [⟨.warning, surveySource, s!"Introspection failure recovered: {report.line}"⟩] }

end Survey

/-- What is noted while description rows are read, up to the first that cannot be. -/
def columnNotes : List Row → List Note
  | [] => []
  | row :: rest =>
    Column.rowNotes row ++ match Column.ofRow row with
      | .ok _ => columnNotes rest
      | .error _ => []

/-- The survey of one table, and the outcomes that it leaves. -/
def surveyTable (name : String) (outcomes : List Outcome) : Survey × List Outcome :=
  let described : List Event := [.execute (.describe name)]
  match nextOutcome outcomes with
  | (.failure reason, outcomes) => (.ofFailure described [] name reason, outcomes)
  | (.rows rows, outcomes) =>
    let notes := columnNotes rows
    match rows.mapM Column.ofRow with
    | .error e => ({ events := described, notes := notes, fault := some e }, outcomes)
    | .ok columns =>
      let fetched := described ++ [.execute (.constraints name)]
      match nextOutcome outcomes with
      | (.failure reason, outcomes) => (.ofFailure fetched notes name reason, outcomes)
      | (.rows rows, outcomes) =>
        let table : Except Fault (Option Table) := do
          let rows ← rows.mapM ConstraintRow.ofRow
          if columns = [] then return none
          return some (← Table.make name columns (← Key.ofRows rows))
        match table with
        | .error e => ({ events := fetched, notes := notes, fault := some e }, outcomes)
        | .ok (some t) => ({ tables := [t], events := fetched, notes := notes }, outcomes)
        | .ok none =>
          ({ events := fetched
             notes := notes ++
              [⟨.debug, surveySource, s!"Table '{name}' has no columns, omitted."⟩] }, outcomes)

/-- The survey of listed tables, one after another. -/
def surveyTables : List String → List Outcome → Survey
  | [], _ => {}
  | name :: rest, outcomes =>
    let (s, outcomes) := surveyTable name outcomes
    s ++ surveyTables rest outcomes

/-- The name in the first cell of each row. -/
def tableNames : List Row → Except Fault (List String)
  | [] => .ok []
  | [] :: _ => .error .emptyRow
  | (cell :: _) :: rest => (tableNames rest).map (cell.display :: ·)

/-- The survey of a whole database over an open connection. -/
def surveyAll (outcomes : List Outcome) : Survey :=
  let listed : List Event := [.execute .showTables]
  match nextOutcome outcomes with
  | (.failure reason, _) => .ofFailure listed [] everyTable reason
  | (.rows rows, outcomes) =>
    match tableNames rows with
    | .error e => { events := listed, fault := some e }
    | .ok names =>
      { events := listed
        notes := [⟨.info, surveySource, s!"Introspecting {names.length} table(s)."⟩] }
        ++ surveyTables names outcomes

/-- The result of reading a database, with the events of the session and the notes. -/
structure Inspection where
  result : Except Fault Introspection
  events : List Event
  notes : List Note

/-- Reads a database. With `ownEngine` an engine is made from the address and disposed of at the
end; otherwise one is there already and is left open. -/
def inspect (url : LooseText) (script : Script) (ownEngine : Bool) : Inspection :=
  let made : List Event := if ownEngine then [.createEngine (normaliseUrl url)] else []
  let disposed : List Event := if ownEngine then [.dispose] else []
  match if ownEngine then script.engineError else none, script.connectError with
  | some reason, _ =>
    { result := .error (.connection url reason)
      events := made
      notes := [⟨.error, surveySource,
        .text "Engine for " ++ url ++ .text " could not be created: " ++ reason⟩] }
  | none, some reason =>
    { result := .error (.connection url reason)
      events := made ++ [.connect] ++ disposed
      notes := [⟨.error, surveySource,
        .text "Connection to " ++ url ++ .text " failed: " ++ reason⟩] }
  | none, none =>
    let s := surveyAll script.outcomes
    let events := made ++ [.connect] ++ s.events ++ [.close] ++ disposed
    match s.fault with
    | some e => { result := .error e, events := events, notes := s.notes }
    | none =>
      { result := .ok ⟨s.tables, s.errors⟩
        events := events
        notes := s.notes ++ [⟨.info, surveySource,
          s!"Introspection complete: {s.tables.length} table(s), {s.errors.length} error(s)."⟩] }

end CatalogSync
