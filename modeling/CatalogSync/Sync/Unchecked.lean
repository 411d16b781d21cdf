import CatalogSync.Catalog.Encode
import CatalogSync.Record.Unchecked
import CatalogSync.Sync.Report

/-!
Reports whose values are not checked. A report is made of plain values, and nothing checks them when it is
made or changed. It is shown as other reports are, until a value that is no number is to be written with
three places, or one that is no text is to be filled up, or one that holds no values is to be gone through.
A checked report says the same on both ways (`SyncReport.sheet_unchecked`).
-/

namespace CatalogSync

namespace Json

/-- The fault of a value whose kind is not laid out in the way of a code letter; kinds without any
layout are a fault of their own. -/
def layoutFault (code : Char) (j : Json) : Fault :=
  match j with
  | .null | .arr _ | .obj _ =>
    .wrongKind s!"unsupported format string passed to {j.kindName}.__format__"
  | j => .unknownLayout code j.kindName

/-- The number of seconds that a value is worth, with three places. -/
def secondsText : Json → Except Fault String
  | .bool b => .ok ((Binary64.ofRatio false (if b then 1 else 0) 1).toFixed 3)
  | .int i =>
    match Binary64.ofRatio (i < 0) i.natAbs 1 with
    | .infinite _ => .error .groupTooLarge
    | x => .ok (x.toFixed 3)
  | .float x => .ok (x.toFixed 3)
  | j => .error (j.layoutFault 'f')

/-- A text that is to be filled up. -/
def fillable : Json → Except Fault String
  | .str s => .ok s.shown
  | j => .error (j.layoutFault 's')

end Json

structure UncheckedStep where
  name : Json := .str (.text "")
  success : Json := .bool true
  elapsed : Json := .float .zero
  detail : Json := .str (.text "")

structure UncheckedTransfer where
  success : Json
  format : Format
  path : Json
  error : Json := .null
  bytes : Json := .int 0

structure UncheckedReport where
  success : Json := .bool false
  database : Json := .str (.text "")
  totalTables : Json := .int 0
  totalElapsed : Json := .float .zero
  steps : List UncheckedStep := []
  connectionError : Json := .null
  skipped : Json := .arr []
  writes : List UncheckedTransfer := []

def UncheckedStep.line (m : UncheckedStep) : Except Fault LooseText := do
  let name ← m.name.fillable
  return ReportSheet.stepLine m.success.isTruthy name (← m.elapsed.secondsText) m.detail.inline

def UncheckedTransfer.line (t : UncheckedTransfer) : String :=
  if t.success.isTruthy then s!"[{t.format.word}] {t.path.shown}: ok ({t.bytes.shown} bytes)"
  else s!"[{t.format.word}] {t.path.shown}: FAILED — {t.error.shown}"

namespace UncheckedReport

def failedWrites (r : UncheckedReport) : List UncheckedTransfer :=
  r.writes.filter (!·.success.isTruthy)

/-- The lines about tables that were left out; a value that counts as nothing has none. -/
def skippedLines (r : UncheckedReport) : Except Fault (List String) := do
  if r.skipped.isTruthy then
    let _ ← (Unchecked.plain r.skipped).length
    return (← (Unchecked.plain r.skipped).items).map (·.inline)
  else return []

/-- What the text of a report says. -/
def sheet (r : UncheckedReport) : Except Fault ReportSheet := do
  let elapsed ← r.totalElapsed.secondsText
  let steps ← r.steps.mapM (·.line)
  let skipped ← r.skippedLines
  return {
    success := r.success.isTruthy
    database := r.database.shown
    tables := r.totalTables.shown
    written := r.writes.length - r.failedWrites.length
    elapsed := elapsed
    steps := steps
    connection := if r.connectionError.isTruthy then some r.connectionError.inline else none
    skipped := skipped
    failed := r.failedWrites.map (·.line) }

/-- The text that shows a report. -/
def summary (r : UncheckedReport) : Except Fault LooseText := r.sheet.map (·.text)

end UncheckedReport

/-! ## Checked reports as unchecked ones -/

def StepMetric.unchecked (m : StepMetric) : UncheckedStep where
  name := .str (.text m.name)
  success := .bool m.success
  elapsed := .float m.elapsed
  detail := .str m.detail

def Transfer.unchecked (t : Transfer) : UncheckedTransfer where
  success := .bool t.success
  format := t.format
  path := .str (.text t.path)
  error := Json.ofText? t.error
  bytes := .int t.bytes

def SyncReport.unchecked (r : SyncReport) : UncheckedReport where
  success := .bool r.success
  database := .str (.text r.database)
  totalTables := .int r.totalTables
  totalElapsed := .float r.totalElapsed
  steps := r.steps.map (·.unchecked)
  connectionError := Json.ofOption Json.str r.connectionError
  skipped := Json.ofTexts r.skipped
  writes := r.writes.map (·.unchecked)

theorem StepMetric.line_unchecked (m : StepMetric) : m.unchecked.line = .ok m.line := by
  simp only [UncheckedStep.line, unchecked, StepMetric.line, Json.fillable, Json.secondsText,
    Json.isTruthy]
  rfl

theorem Transfer.line_unchecked (t : Transfer) : t.unchecked.line = t.line := by
  have error : (Json.ofText? t.error).shown = t.error.getD noReason := by
    cases t.error with
    | none => rfl
    | some s => exact Json.shown_text s
  simp only [UncheckedTransfer.line, unchecked, line, Json.isTruthy, Json.shown_text,
    Json.shown_int, error]
  rfl

namespace SyncReport

theorem failedWrites_unchecked (r : SyncReport) :
    r.unchecked.failedWrites = r.failedWrites.map (·.unchecked) := by
  simp [UncheckedReport.failedWrites, unchecked, failedWrites, List.filter_map, Function.comp_def,
    Transfer.unchecked, Json.isTruthy]

/-- A checked report says the same, whether its values are checked or not. -/
theorem sheet_unchecked (r : SyncReport) : r.unchecked.sheet = .ok r.sheet := by
  have steps : r.unchecked.steps.mapM (·.line) = .ok (r.steps.map (·.line)) := by
    simp only [unchecked, List.mapM_map, Function.comp_def, StepMetric.line_unchecked]
    exact List.mapM_pure
  have skipped : r.unchecked.skippedLines = .ok r.skipped := by
    cases h : r.skipped with
    | nil => simp [UncheckedReport.skippedLines, unchecked, h, Json.ofTexts, Json.isTruthy]; rfl
    | cons s rest =>
      have inline (t : String) : (Unchecked.plain (.str (.text t))).inline = t :=
        Json.shown_text t
      simp [UncheckedReport.skippedLines, unchecked, h, Json.ofTexts, Json.isTruthy,
        Unchecked.length, Unchecked.items, bind, Except.bind, pure, Except.pure, inline,
        Function.comp_def]
  have connection : (if r.unchecked.connectionError.isTruthy
      then some r.unchecked.connectionError.inline else none)
        = r.connectionError.filter (· ≠ .text "") := by
    cases h : r.connectionError with
    | none => simp [unchecked, h, Json.ofOption, Json.isTruthy]
    | some s =>
      by_cases empty : s = .text "" <;>
        simp [unchecked, h, Json.ofOption, Json.isTruthy, Json.inline, empty, Option.filter]
  have failed : r.unchecked.failedWrites.map (·.line) = r.failedWrites.map (·.line) := by
    simp [failedWrites_unchecked, Function.comp_def, Transfer.line_unchecked]
  have elapsed : r.unchecked.totalElapsed.secondsText = .ok (r.totalElapsed.toFixed 3) := rfl
  have written : r.unchecked.writes.length - r.unchecked.failedWrites.length
      = r.writes.length - r.failedWrites.length := by
    rw [failedWrites_unchecked, List.length_map]
    simp [unchecked]
  have success : r.unchecked.success.isTruthy = r.success := rfl
  have database : r.unchecked.database.shown = r.database := Json.shown_text r.database
  have tables : r.unchecked.totalTables.shown = toString r.totalTables :=
    Json.shown_int r.totalTables
  simp only [UncheckedReport.sheet, elapsed, steps, skipped, connection, failed, written, success,
    database, tables]
  rfl

end SyncReport

end CatalogSync
