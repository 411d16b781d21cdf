import CatalogSync.Cli.Footprint
import Std.Time.Format

/-!
The program. The files that a run may look at are read into a tree; the run works on that tree
alone, and what it changed is written back. There is no connection to databases here, so that
reading one fails; everything else works.
-/

namespace CatalogSync

open scoped Room

/-- The path that leads from the root to a place. -/
def placeText (l : Location) : String := "/" ++ "/".intercalate l

/-- What stands at a place on disk. Reading a directory as a file tells that it is one; a place
below a file looks like one too, but no path leads there. -/
def lookAt (l : Location) : IO (Option Entry) := do
  try
    return some (.file (← IO.FS.readBinFile (placeText l)).toList)
  catch
    | .inappropriateType .. => return some .directory
    | _ => return none

/-- The places that names lead through. -/
def placesFrom (l : Location) : List String → List Location
  | [] => [l]
  | part :: rest => l :: placesFrom (if part = ".." then l.dropLast else l ++ [part]) rest

/-- The places that a path leads through. -/
def placesOf (here : Location) (p : Path) : List Location :=
  placesFrom (if p.root = .here then here else []) p.parts

/-- The part of the files on disk that paths lead through. -/
def takeTree (here : Location) (paths : List Path) : IO FileTree := do
  let mut tree : FileTree := ⟨[], here⟩
  for l in paths.flatMap (placesOf here) do
    match ← lookAt l with
    | some e => tree := tree.set l e
    | none => pure ()
  return tree

/-- Writes to disk what a run changed, the oldest change first. -/
def putTree (before after : FileTree) : IO Unit := do
  for (l, e) in after.entries.reverse do
    if before.entry? l ≠ some e then
      match e with
      | .directory => IO.FS.createDirAll (placeText l)
      | .file bytes => IO.FS.writeBinFile (placeText l) ⟨bytes.toArray⟩

/-- The time of day. -/
def timeOfDay : IO String := do
  try
    return (← Std.Time.PlainTime.now).toTime24Hour
  catch _ => return "00:00:00"

/-- Databases out of reach. -/
def noDatabases : Survey.Source := fun url =>
  inspect url { connectError := some "no database driver", outcomes := [] } true

/-- Runs the program on the files on disk; gives the exit code. -/
def runOnDisk (args : List String) : IO Nat := do
  let storage := (← IO.getEnv Settings.storageVariable).map LooseText.text
  let args := args.map LooseText.text
  let here := Path.partsOf (toString (← IO.currentDir)).toList
  let start (tree : FileTree) : Workspace := { files := tree, clock := { tick := .zero } }
  let mut tree : FileTree := ⟨[], here⟩
  for _ in List.range (Cli.footprintRounds + 1) do
    tree ← takeTree here (Cli.footprint storage args (start tree))
  let surroundings : Cli.Surroundings :=
    { storage := storage, databases := noDatabases, time := ← timeOfDay }
  let (finished, w) := Cli.run surroundings args (start tree)
  putTree tree w.files
  IO.print finished.output
  IO.eprint finished.errors
  match finished.exit with
  | .ok code => return code.number
  | .error e =>
    IO.eprintln e.message.escaped
    return 1

end CatalogSync

/-- The command line. -/
def main (args : List String) : IO UInt32 := do
  return (← CatalogSync.runOnDisk args).toUInt32
