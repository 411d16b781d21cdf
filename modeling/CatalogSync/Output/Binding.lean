import CatalogSync.Output.Content
import CatalogSync.Workspace

/-!
A file bound to a format. A binding keeps two contents: the one first read from the file, which
stays, and the one last made from a database. Writing makes a content anew and keeps neither. What
the system refuses while a file is read or written is reported and not raised.
-/

namespace CatalogSync

/-- How one reading or writing of a bound file ended. -/
structure Transfer where
  success : Bool
  format : Format
  path : String
  error : Option String := none
  bytes : Nat := 0
deriving DecidableEq, Repr

namespace Transfer

/-- Stands for the reason of a refusal that gives none. -/
def noReason : String := "None"

def line (t : Transfer) : String :=
  if t.success then s!"[{t.format.word}] {t.path}: ok ({t.bytes} bytes)"
  else s!"[{t.format.word}] {t.path}: FAILED — {t.error.getD noReason}"

end Transfer

/-- A file bound to a format. Its header may have been written from texts with halves of pairs; the
`halves` then keep the file from being written. -/
structure Binding (f : Format) where
  path : Path
  generator : Generator := {}
  datasource : Datasource := {}
  halves : Option Text.HalfFault := none
  disk : Option f.Content := none
  database : Option f.Content := none

namespace Binding

variable [Room]

variable {f : Format}

/-- Stands above the content that was read from the file. -/
def diskLabel : String := "disk schema:"

/-- Stands above the content that was made from a database. -/
def databaseLabel : String := "db schema:"

/-- The content of the file for the tables of a catalog. -/
def contentOf (b : Binding f) (tables : List Table) : f.Content :=
  Content.ofTables b.generator b.datasource tables f

/-- The transfer that went well, with a number of bytes. -/
def done (b : Binding f) (bytes : Nat) : Transfer :=
  { success := true, format := f, path := b.path.toString, bytes := bytes }

/-- The transfer that the system refused. -/
def refused (b : Binding f) (reason : String) : Transfer :=
  { success := false, format := f, path := b.path.toString, error := some reason }

/-- Runs an operation on the file; a refusal of the system is noted and reported. -/
def guarded {α : Type} (b : Binding f) (verb : String) (act : Act α) : Act (Transfer ⊕ α) := do
  try
    return .inr (← act)
  catch
    | .file (.os code path) =>
      let reason := (FileFault.os code path).message
      Act.note .error Content.source s!"Failed to {verb} {b.path.toString}: {reason}"
      return .inl (b.refused reason)
    | e => throw e

/-- Makes the content for tables and overwrites the file with it. -/
def write (b : Binding f) (tables : List Table) : Act Transfer := do
  Act.note .info Content.source s!"Writing {f.word} to {b.path.toString}"
  let content := b.contentOf tables
  Act.notes (Content.ofTablesNotes tables f)
  Act.notes (Content.checkNotes b.path content)
  Act.notes (Content.renderNotes content)
  match ← b.guarded "write" (Act.writeText b.path (Content.render content) b.halves) with
  | .inl refusal => return refusal
  | .inr size => return b.done size

/-- Reads the file, unless a content was read from it before. -/
def loadDisk (b : Binding f) : Act (Transfer × Binding f) := do
  if b.disk.isSome then
    Act.note .debug Content.source s!"Disk value for {b.path.toString} already cached."
    return (b.done 0, b)
  match ← b.guarded "read" (Act.readText b.path) with
  | .inl refusal => return (refusal, b)
  | .inr text =>
    Act.notes (Content.parseNotes b.path f text)
    match ← Act.ofExcept (Content.parse f text) with
    | some content => return (b.done 0, { b with disk := some content })
    | none => return (b.done 0, b)

/-- Makes the content for tables and keeps it. -/
def loadDatabase (b : Binding f) (tables : List Table) : Binding f :=
  { b with database := some (b.contentOf tables) }

/-- One labelled content. -/
def labelled (label : String) (content : f.Content) : List Char :=
  label.toList ++ ['\n', '\n'] ++ Content.render content ++ ['\n', '\n']

/-- The contents that are kept, each under its label. -/
def render (b : Binding f) : List Char :=
  ((b.disk.map (labelled diskLabel)).getD []) ++ ((b.database.map (labelled databaseLabel)).getD [])

/-- What is noted when the kept contents have been written as text. -/
def renderNotes (b : Binding f) : List Note :=
  ((b.disk.map Content.renderNotes).getD []) ++ ((b.database.map Content.renderNotes).getD [])

/-- The short form shown in reports. -/
def summary (b : Binding f) : String :=
  match f with
  | .json => s!"<JsonTranslator {b.path.toString}>"
  | .prisma => s!"<PrismaTranslator {b.path.toString}>"

end Binding

end CatalogSync
