import CatalogSync.Number.Decimal
import CatalogSync.Output.Binding

/-!
Reports on the synchronisation of one database: its steps with their times, what went wrong, and the
text that shows all of it.
-/

namespace CatalogSync

/-- One step, how it ended and how long it took. -/
structure StepMetric where
  name : String := ""
  success : Bool := true
  elapsed : Binary64 := .zero
  detail : LooseText := ""
deriving DecidableEq, Repr

structure SyncReport where
  success : Bool := false
  database : String := ""
  totalTables : Int := 0
  totalElapsed : Binary64 := .zero
  steps : List StepMetric := []
  connectionError : Option LooseText := none
  skipped : List String := []
  writes : List Transfer := []
deriving DecidableEq, Repr

/-- What the text of a report says, each part as it is written. -/
structure ReportSheet where
  success : Bool
  database : String
  tables : String
  /-- How many files were written. -/
  written : Nat
  elapsed : String
  steps : List LooseText
  connection : Option LooseText
  skipped : List String
  failed : List String

namespace ReportSheet

/-- A step's mark, its name filled up, its time in seconds and its detail. -/
def stepLine (success : Bool) (name elapsed : String) (detail : LooseText) : LooseText :=
  let mark := if success then "✓" else "✗"
  let name := String.ofList (Text.padRight 28 name.toList)
  let time := String.ofList (Text.padLeft ' ' 7 elapsed.toList)
  .text s!"    {mark} {name} {time}s  " ++ detail

/-- A rule across the report. -/
def rule (c : Char) : String := String.ofList (List.replicate 60 c)

/-- A titled part of the report; nothing where it has no lines. -/
def part (title : String) (lines : List LooseText) : List LooseText :=
  if lines = [] then [] else .text (rule '─') :: .text title :: lines

def lines (s : ReportSheet) : List LooseText :=
  let status := if s.success then "✅ SUCCESS" else "❌ FAILED"
  [rule '=', s!"  Sync Report — {s.database}", rule '=', s!"  Status:           {status}",
      s!"  Tables:           {s.tables}", s!"  Files written:    {s.written}",
      s!"  Total time:       {s.elapsed}s", rule '─'].map LooseText.text
    ++ (if s.steps = [] then [] else .text "  Steps:" :: s.steps)
    ++ part "  Connection Error:" (s.connection.toList.map fun e => .text "    ✗ " ++ e)
    ++ part s!"  Skipped Tables ({s.skipped.length}):" (s.skipped.map fun e => .text ("    ⊘ " ++ e))
    ++ part s!"  Write Errors ({s.failed.length}):" (s.failed.map fun e => .text ("    ✗ " ++ e))
    ++ [.text (rule '=')]

def text (s : ReportSheet) : LooseText := .joined "\n" s.lines

end ReportSheet

def StepMetric.line (m : StepMetric) : LooseText :=
  ReportSheet.stepLine m.success m.name (m.elapsed.toFixed 3) m.detail

namespace SyncReport

def failedWrites (r : SyncReport) : List Transfer := r.writes.filter (!·.success)

/-- What the text of a report says. -/
def sheet (r : SyncReport) : ReportSheet where
  success := r.success
  database := r.database
  tables := toString r.totalTables
  written := r.writes.length - r.failedWrites.length
  elapsed := r.totalElapsed.toFixed 3
  steps := r.steps.map (·.line)
  connection := r.connectionError.filter (· ≠ "")
  skipped := r.skipped
  failed := r.failedWrites.map (·.line)

/-- The text that shows a report. -/
def summary (r : SyncReport) : LooseText := r.sheet.text

end SyncReport

end CatalogSync
