import CatalogSync.Cli.Request
import CatalogSync.Registry.Basic

/-!
What the commands do. A command works on the registry as it was loaded and on the workspace, and
ends with an exit code and with what is to be printed. Refusals are noted as errors; the faults of
files, databases and schemas that a command does not turn into a refusal go on to its caller.
-/

namespace CatalogSync.Cli

variable [Room]

/-- How a command ends: with a code, once these texts are printed one after another. -/
structure Done where
  code : ExitCode := .success
  printed : List LooseText := []

namespace Done

/-- What is printed: the texts before the first that cannot be encoded. -/
def output (d : Done) : String :=
  String.join ((d.printed.takeWhile (!·.isBroken)).map (·.shown))

/-- The code of a command, unless a text that it prints cannot be encoded. -/
def exit (d : Done) : Except Fault ExitCode :=
  match d.printed.findSome? (·.halfFault?) with
  | some fault => .error (.unencodable fault)
  | none => .ok d.code

end Done

/-- The dotted name under which commands write their notes. -/
def source : String := "mysqltranslate"

/-- Notes an error and ends with a code. -/
def refuse (code : ExitCode) (text : LooseText) : Registry.Act Done := do
  Registry.Act.notes [⟨.error, source, text⟩]
  return { code := code }

/-- Refuses a name that no database has. -/
def refuseName (name : LooseText) : Registry.Act Done :=
  refuse .badInput (.text "No database named '" ++ name ++ .text "'.")

/-- A text as a line of its own. -/
def line (text : LooseText) : LooseText := text ++ .text "\n"

def emptyRegistryLine : LooseText := line "No databases registered."

/-- Goes on with the database of a name. -/
def withDatabase (name : LooseText) (act : DatabaseEntry → Registry.Act Done) :
    Registry.Act Done := do
  match (← Registry.Act.current).named? name with
  | some e => act e
  | none => refuseName name

/-- Goes on with the format that was given. -/
def withFormat (f? : Option Format) (act : Format → Registry.Act Done) : Registry.Act Done :=
  match f? with
  | some f => act f
  | none => throw .noFormat

/-- Goes on with the file that a database has for a format. -/
def withMapping (e : DatabaseEntry) (f : Format) (act : DiskMapping → Registry.Act Done) :
    Registry.Act Done :=
  match e.mapping? f with
  | some m => act m
  | none => refuse .badInput (Fault.noFileBound e.name f.word).message

/-- Success exactly if every report is one. -/
def codeOf (reports : List SyncReport) : ExitCode :=
  if reports.all (·.success) then .success else .workFailed

/-- Ends with reports printed. -/
def reported (reports : List SyncReport) : Done :=
  { code := codeOf reports, printed := reports.map fun r => line r.summary }

/-- Prints all databases in the order of their names. -/
def performList : Registry.Act Done := do
  match (← Registry.Act.current).sorted with
  | [] => return { printed := [emptyRegistryLine] }
  | entries => return { printed := entries.map fun e => line e.display }

/-- Registers a database under a name that no other has. -/
def performAdd (name : LooseText) (url : Option LooseText) : Registry.Act Done := do
  if ((← Registry.Act.current).named? name).isSome then
    refuse .badInput (.text "A database named '" ++ name ++ .text "' already exists.")
  else
    let given := .obj [("name", .str name), ("db_url", Json.ofOption Json.str url)]
    let entry := (DatabaseEntry.decoder given).toExcept .databaseEntry
    if ← Registry.add (← Registry.Act.onWorkspace (Act.ofExcept entry)) then
      return { printed := [line (.text "Added database '" ++ name ++ .text "'.")] }
    else
      refuse .badInput
        (.text "Database '" ++ name ++ .text "' was not added (empty or duplicate URL).")

def performRemove (name : LooseText) : Registry.Act Done :=
  withDatabase name fun e => do
    let _ ← Registry.remove e.name
    return { printed := [line (.text "Removed database '" ++ name ++ .text "'.")] }

/-- Binds a file to a database and writes the registry. -/
def performBind (name : LooseText) (f? : Option Format) (path? : Option LooseText) :
    Registry.Act Done :=
  withDatabase name fun e => withFormat f? fun f => do
    match path? with
    | none => throw (.record .diskMapping [⟨[.name "path"], .stringType⟩])
    | some path =>
      let _ ← Registry.bind e.name f path
      let _ ← Registry.save
      let bound := .text s!"Bound {f.word} output of '" ++ name ++ .text "' to " ++ path
      return { printed := [line (bound ++ .text ".")] }

/-- Synchronises one database, or all of them. -/
def performSync (settings : Settings) (databases : Survey.Source) :
    Option LooseText → Registry.Act Done
  | none => do
    let r ← Registry.Act.current
    match ← Registry.Act.onWorkspace (Sync.all settings databases r) with
    | [] => return { printed := [emptyRegistryLine] }
    | reports => return reported reports
  | some name => withDatabase name fun e => do
    return reported [← Registry.Act.onWorkspace (Sync.database settings databases e)]

/-- The word of a source; none at all is shown as an empty list. -/
def sourceWord (from? : Option ViewSource) : String :=
  match from? with
  | some source => source.word
  | none => Text.quotedList []

/-- Prints the content of a database in a format; a file that cannot be read and a database that
cannot be reached are refused. -/
def performView (settings : Settings) (databases : Survey.Source) (name : LooseText)
    (f? : Option Format) (from? : Option ViewSource) : Registry.Act Done :=
  withDatabase name fun e => withFormat f? fun f => withMapping e f fun _ => do
    try
      let text ← Registry.Act.onWorkspace (Sync.view settings databases e f (sourceWord from?))
      return { printed := [text] }
    catch e =>
      if e.isSystemFault ∨ e.isConnectionFault then
        let failure := .text s!"Could not load {f.word} schema of '" ++ name ++ .text "': "
        refuse .workFailed (failure ++ e.message)
      else throw e

/-- Synchronises the file of one format. -/
def performWrite (settings : Settings) (databases : Survey.Source) (name : LooseText)
    (f? : Option Format) : Registry.Act Done :=
  withDatabase name fun e => withFormat f? fun f => withMapping e f fun m => do
    let single := { e with mappings := [m] }
    return reported [← Registry.Act.onWorkspace (Sync.database settings databases single)]

/-- Does what a command line asks for. -/
def perform (settings : Settings) (databases : Survey.Source) : Request → Registry.Act Done
  | .list => performList
  | .add name url => performAdd name url
  | .remove name => performRemove name
  | .bind name f path => performBind name f path
  | .sync name => performSync settings databases name
  | .view name f from? => performView settings databases name f from?
  | .write name f => performWrite settings databases name f

end CatalogSync.Cli
