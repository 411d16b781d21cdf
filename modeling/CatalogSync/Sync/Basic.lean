import CatalogSync.Registry.Basic
import CatalogSync.Settings.Basic
import CatalogSync.Sync.Report

/-!
Synchronising registered databases with their files. A database is read once, then each of its files
is written; a file that cannot be written keeps no other from being written, and a database that
cannot be reached ends in a report. Viewing shows what a file holds, what a database holds, or both.
-/

namespace CatalogSync

/-- Where a view takes contents from. -/
inductive ViewSource where
  | database
  | disk
  | both
deriving DecidableEq, Repr

namespace ViewSource

def word : ViewSource → String
  | .database => "database"
  | .disk => "disk"
  | .both => "both"

def all : List ViewSource := [.database, .disk, .both]

def ofWord? (word : String) : Option ViewSource := all.find? (·.word = word)

def parse (s : String) : Except Fault ViewSource :=
  match ofWord? s with
  | some source => .ok source
  | none => .error (.unknownSource s)

def usesDisk (s : ViewSource) : Bool := s ≠ .database

def usesDatabase (s : ViewSource) : Bool := s ≠ .disk

end ViewSource

namespace Sync

variable [Room]

/-- The dotted name under which synchronising writes its notes. -/
def source : String := "mysqltranslate.sync"

/-- The binding of a registered file. -/
def bindingOf (settings : Settings) (m : DiskMapping) : Binding m.format :=
  { path := Path.ofString m.path
    generator := settings.generator
    datasource := settings.datasource
    halves := if m.format = .prisma then settings.halfFault? else none }

/-- Reads a database; one that cannot be reached gives the reason. -/
def reach (databases : Survey.Source) (url : LooseText) : Act (LooseText ⊕ Introspection) := do
  try
    return .inr (← Act.survey databases url)
  catch
    | .connection url reason => return .inl (Fault.connection url reason).message
    | e => throw e

/-- Writes the files of a database, each with the time it took. -/
def writeFiles (settings : Settings) (tables : List Table) :
    List DiskMapping → Act (List (DiskMapping × Transfer × Binary64))
  | [] => return []
  | m :: rest => do
    let (transfer, elapsed) ←
      Act.timed s!"write {m.format.word}" ((bindingOf settings m).write tables)
    return (m, transfer, elapsed) :: (← writeFiles settings tables rest)

/-- The report on a database that could not be reached. -/
def unreachable (database : String) (reason : LooseText) (elapsed : Binary64) : SyncReport :=
  { database := database
    totalElapsed := elapsed
    connectionError := some reason
    steps := [⟨"Introspect", false, elapsed, reason⟩] }

/-- The step of one written file. -/
def writeStep (w : DiskMapping × Transfer × Binary64) : StepMetric :=
  { name := s!"Write {w.1.format.word}"
    success := w.2.1.success
    elapsed := w.2.2
    detail := .text (if w.2.1.success then w.1.path else w.2.1.error.getD "") }

/-- The report on a database that was read and whose files were written. -/
def completed (database : String) (found : Introspection) (elapsed : Binary64)
    (written : List (DiskMapping × Transfer × Binary64)) : SyncReport :=
  let transfers := written.map fun w => w.2.1
  let counts := s!"{found.tables.length} table(s), {found.errors.length} skipped"
  { success := transfers.all (·.success)
    database := database
    totalTables := found.tables.length
    totalElapsed := written.foldl (fun total w => total.add w.2.2) elapsed
    steps := ⟨"Introspect", true, elapsed, counts⟩ :: written.map writeStep
    skipped := found.errors.map (·.line)
    writes := transfers }

/-- Reads a database and writes its files. -/
def database (settings : Settings) (databases : Survey.Source) (e : DatabaseEntry) :
    Act SyncReport := do
  Act.note .info source s!"Syncing database '{e.name}'."
  let (found, elapsed) ← Act.timed "introspect" (reach databases e.url)
  match found with
  | .inl reason =>
    Act.note .error source (.text s!"Sync of '{e.name}' aborted: " ++ reason)
    return unreachable e.name reason elapsed
  | .inr found =>
    let written ← writeFiles settings found.tables e.mappings
    if e.mappings.isEmpty then
      Act.note .warning source s!"Database '{e.name}' has no output files bound."
    let report := completed e.name found elapsed written
    let outcome := if report.success then "succeeded" else "failed"
    Act.note .info source s!"Sync of '{e.name}' {outcome}: {report.writes.length} file(s)."
    return report

/-- Synchronises databases one after another. -/
def databases (settings : Settings) (source : Survey.Source) :
    List DatabaseEntry → Act (List SyncReport)
  | [] => return []
  | e :: rest => do
    let report ← database settings source e
    return report :: (← databases settings source rest)

/-- Synchronises all registered databases in the order of their names. -/
def all (settings : Settings) (source : Survey.Source) (r : Registry) : Act (List SyncReport) :=
  databases settings source r.sorted

/-- The content with another header, where it has one. -/
def withHeader (settings : Settings) : {f : Format} → f.Content → f.Content
  | .json, value => value
  | .prisma, value =>
    { value with generator := settings.generator, datasource := settings.datasource }

/-- The text of the contents that a binding keeps. The halves of pairs in it are those of the content
of the file, and those of the settings in the header of a schema that was made of a database. -/
def shownText (settings : Settings) {f : Format} (b : Binding f) : LooseText :=
  let marked (mark : Char) : Binding f :=
    { b with
      disk := b.disk.map (Content.shownBy mark)
      database := b.database.map (withHeader (settings.shownBy mark)) }
  let header := if b.database.isSome then settings.headerTexts f else []
  .written ((b.disk.map Content.texts).getD [] ++ header) fun mark => (marked mark).render

/-- The text of a database's content in a format, as it is on disk, in the database, or both. -/
def view (settings : Settings) (databases : Survey.Source) (e : DatabaseEntry) (f : Format)
    (sourceWord : String) : Act LooseText := do
  let from? ← Act.ofExcept (ViewSource.parse sourceWord)
  match e.mapping? f with
  | none => throw (.noFileBound e.name f.word)
  | some m =>
    let mut binding := bindingOf settings m
    if from?.usesDisk then
      let (transfer, loaded) ← binding.loadDisk
      if !transfer.success then throw (.unreadable (transfer.error.getD Transfer.noReason))
      binding := loaded
    if from?.usesDatabase then
      let found ← Act.survey databases e.url
      Act.notes (found.errors.map fun report => ⟨.warning, source, report.line⟩)
      Act.notes (Content.ofTablesNotes found.tables m.format)
      binding := binding.loadDatabase found.tables
    Act.notes binding.renderNotes
    return shownText settings binding

end Sync

end CatalogSync
