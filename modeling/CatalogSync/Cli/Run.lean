import CatalogSync.Cli.Perform
import CatalogSync.Settings.File

/-!
A run of the program: its command line is read, then the settings, then the registry, and then the
command is performed and its texts are printed. A text that cannot be encoded ends a run with a fault
that nothing handles. The notes of a run that are heavy enough go to the stream for errors, one line
each. The settings may say how heavy; until they are read, warnings are.
-/

namespace CatalogSync.Cli

variable [Room]

/-- What surrounds a run: the variable that names the storage directory, the databases, and the time
of day that notes are marked with. -/
structure Surroundings where
  storage : Option LooseText := none
  databases : Survey.Source
  time : String

/-- The word of the command of a request. -/
def Request.word : Request → String
  | .list => "list"
  | .add _ _ => "add"
  | .remove _ => "remove"
  | .bind _ _ _ => "map"
  | .sync _ => "sync"
  | .view _ _ _ => "view"
  | .write _ _ => "write"

/-- A note as it is printed. -/
def noteLine (time : String) (n : Note) : String :=
  let level := String.ofList (Text.padRight 8 n.level.name.toList)
  (line (.text s!"{time} │ {level} │ {n.source} │ " ++ n.text)).escaped

/-- The lines of the notes that are at least as heavy as a level. -/
def noteLines (time : String) (threshold : Level) (notes : List Note) : String :=
  String.join ((notes.filter fun n => threshold.rank ≤ n.level.rank).map (noteLine time))

/-- Reads the settings that a command line names, or those of the environment. -/
def askedSettings (storage : Option LooseText) : Option (Option LooseText) → Act Settings
  | none => do
    Act.notes (Settings.environmentNotes storage)
    Act.ofExcept (Settings.ofEnvironment storage)
  | some none => throw .noPath
  | some (some path) => Settings.load path storage

/-- Reads the settings of a run; a missing file and settings that break the rules give an
explanation. -/
def findSettings (storage : Option LooseText) (config : Option (Option LooseText)) :
    Act (LooseText ⊕ Settings) := do
  try
    return .inr (← askedSettings storage config)
  catch e =>
    if e.isMissingFile ∨ e.isValueFault then
      return .inl (.text "Failed to load configuration: " ++ e.message)
    else throw e

/-- Loads the registry; a file that cannot be read gives an explanation. -/
def loadRegistry : Registry.Act (Option LooseText) := do
  try
    Registry.load
    return none
  catch e =>
    if e.isSystemFault ∨ e.isValueFault then
      return some (.text "Failed to load session registry: " ++ e.message)
    else throw e

/-- Performs a request; faults of schemas and of files end it with a code. -/
def performGuarded (settings : Settings) (databases : Survey.Source) (request : Request) :
    Registry.Act Done := do
  try
    perform settings databases request
  catch e =>
    if e.isRelationFault then refuse .malformed (.text "DSL parse error: " ++ e.message)
    else if e.isSystemFault then refuse .workFailed (.text "I/O error: " ++ e.message)
    else throw e

/-- Notes a code that is not that of success. -/
def noteFailure (request : Request) (code : ExitCode) : Registry.Act Unit :=
  if code = .success then pure ()
  else Registry.Act.notes [⟨.error, source,
    s!"Command '{request.word}' failed with exit code {code.number}."⟩]

/-- Loads the registry and performs a request on it; a code is noted once all texts are printed. -/
def work (settings : Settings) (databases : Survey.Source) (request : Request) :
    Registry.Act Done := do
  match ← loadRegistry with
  | some explanation => refuse .badInput explanation
  | none =>
    let r ← Registry.Act.current
    Registry.Act.notes [⟨.info, source,
      s!"Session: {r.path.toString} ({r.entries.length} databases)"⟩]
    let done ← performGuarded settings databases request
    match done.exit with
    | .ok code => noteFailure request code
    | .error _ => pure ()
    return done

/-- The part of a run after its settings are known: how it ends, and the workspace it leaves. -/
def runWith (settings : Settings) (surroundings : Surroundings) (i : Invocation) (w : Workspace) :
    Finished × Workspace :=
  let shown (w : Workspace) := noteLines surroundings.time (i.threshold settings.logLevel) w.journal
  let registry : Registry := { path := settings.registryPath }
  match work settings surroundings.databases i.request (registry, { w with journal := [] }) with
  | .ok done (_, w) => ({ exit := done.exit, output := done.output, errors := shown w }, w)
  | .error e (_, w) => ({ exit := .error e, errors := shown w }, w)

/-- What a run prints about its settings comes before what follows. -/
def Finished.after (errors : String) (f : Finished) : Finished :=
  { f with errors := errors ++ f.errors }

/-- Runs the program on the words of a command line. -/
def run (surroundings : Surroundings) (args : List LooseText) (w : Workspace) :
    Finished × Workspace :=
  match Invocation.parse args with
  | .error finished => (finished, w)
  | .ok i =>
    let shown (w : Workspace) := noteLines surroundings.time (i.threshold .warning) w.journal
    match findSettings surroundings.storage i.config { w with journal := [] } with
    | .error e w => ({ exit := .error e, errors := shown w }, w)
    | .ok (.inl explanation) w =>
      let w := w.noting [⟨.error, source, explanation⟩]
      ({ exit := .ok .badInput, errors := shown w }, w)
    | .ok (.inr settings) w =>
      let (finished, left) := runWith settings surroundings i w
      (finished.after (shown w), left)

end CatalogSync.Cli
