import CatalogSync.Clock
import CatalogSync.Database.Survey
import CatalogSync.Number.Decimal

/-!
What the operations work on: files, a clock, the journal, and the events of database sessions. An
`Act` is an operation on a workspace; one that fails leaves the workspace as it is at that point,
and nothing that was done is taken back.
-/

namespace CatalogSync

structure Workspace where
  files : FileTree
  clock : Clock
  journal : List Note := []
  events : List Event := []

/-- An operation that may change the workspace and may fail. -/
abbrev Act := EStateM Fault Workspace

/-- How databases are read, by address. -/
abbrev Survey.Source := LooseText → Inspection

namespace Workspace

/-- Adds notes to the journal. -/
def noting (w : Workspace) (notes : List Note) : Workspace :=
  { w with journal := w.journal ++ notes }

/-- The time, and the workspace after the clock was read. -/
def readClock (w : Workspace) : Binary64 × Workspace :=
  (w.clock.read.1, { w with clock := w.clock.read.2 })

/-- The dotted name under which work on files and timers writes its notes. -/
def source : String := "mysqltranslate.utils"

/-- What is noted when a directory was made. -/
def directoryNotes (p : Path) : List Note :=
  [⟨.debug, source, s!"Ensured directory exists: {p.toString}"⟩]

/-- What is noted while a file is written. -/
def writeNotes [Room] (files : FileTree) (p : Path) (content : List Char)
    (halves : Option Text.HalfFault) : List Note :=
  let made := if FileTree.needsDirectory p then
      match (files.makeDirectory p.parent).2 with
      | .ok () => directoryNotes p.parent
      | .error _ => []
    else []
  made ++ match (files.write p content halves).2 with
    | .ok size => [⟨.debug, source, s!"Wrote {size} bytes to {p.toString}"⟩]
    | .error _ => []

/-- What is noted when a timer was stopped. -/
def timerNotes (t : Timer) : List Note :=
  [⟨.debug, source, s!"Step '{t.label}' took {t.elapsed.toFixed 4}s."⟩]

end Workspace

namespace Act

variable [Room]

variable {α : Type}

/-- Adds notes to the journal. -/
def notes (ns : List Note) : Act Unit := modify (·.noting ns)

/-- Adds one note to the journal. -/
def note (level : Level) (source : String) (text : LooseText) : Act Unit := notes [⟨level, source, text⟩]

/-- A result computed beforehand. -/
def ofExcept : Except Fault α → Act α
  | .ok a => pure a
  | .error e => throw e

/-- Goes on with what an operation on files left. -/
def onFiles (change : FileTree → FileTree × Except FileFault α)
    (noted : FileTree → List Note) : Act α := fun w =>
  let after := { w with files := (change w.files).1 }.noting (noted w.files)
  match (change w.files).2 with
  | .ok a => .ok a after
  | .error e => .error (.file e) after

/-- Makes a directory with its parents. -/
def makeDirectory (p : Path) : Act Unit :=
  onFiles (·.makeDirectory p) fun files =>
    match (files.makeDirectory p).2 with
    | .ok () => Workspace.directoryNotes p
    | .error _ => []

/-- Overwrites a file, making its directory; gives the number of bytes. Halves of pairs that the
text was written from keep it from being encoded. -/
def writeText (p : Path) (content : List Char) (halves : Option Text.HalfFault := none) : Act Nat :=
  onFiles (·.write p content halves) fun files => Workspace.writeNotes files p content halves

/-- The text of a file. -/
def readText (p : Path) : Act (List Char) :=
  onFiles (fun files => (files, files.read p)) fun _ => []

/-- Runs an operation between two readings of the clock. -/
def timed (label : String) (act : Act α) : Act (α × Binary64) := fun w =>
  let started := w.readClock
  let finish (w : Workspace) : Timer × Workspace :=
    let ended := w.readClock
    let timer := ({ label := label : Timer }.start started.1).stop ended.1
    (timer, ended.2.noting (Workspace.timerNotes timer))
  match act started.2 with
  | .ok a w => .ok (a, (finish w).1.elapsed) (finish w).2
  | .error e w => .error e (finish w).2

/-- Reads a database. -/
def survey (source : Survey.Source) (url : LooseText) : Act Introspection := fun w =>
  let found := source url
  let after := { w with events := w.events ++ found.events }.noting found.notes
  match found.result with
  | .ok a => .ok a after
  | .error e => .error e after

end Act

end CatalogSync
