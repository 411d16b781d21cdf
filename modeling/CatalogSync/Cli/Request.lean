import CatalogSync.Cli.Help
import CatalogSync.Output.Format
import CatalogSync.Sync.Basic

/-!
What a command line asks for. The program has one grammar for the words before the command and one
for each command; reading them gives an `Invocation` or ends the run at once, with a help text or
with a message about the words.
-/

namespace CatalogSync.Cli

/-- A command with its operands. What was given as a separator alone has no value. -/
inductive Request where
  | list
  | add (name : LooseText) (url : Option LooseText)
  | remove (name : LooseText)
  | bind (name : LooseText) (format : Option Format) (path : Option LooseText)
  /-- Without a name all databases are synchronised. -/
  | sync (name : Option LooseText)
  | view (name : LooseText) (format : Option Format) (source : Option ViewSource)
  | write (name : LooseText) (format : Option Format)
deriving DecidableEq, Repr

/-- What a command line asks for. -/
structure Invocation where
  /-- The settings file, where one was asked for. -/
  config : Option (Option LooseText) := none
  /-- How often more notes were asked for. -/
  verbosity : Nat := 0
  /-- Only errors were asked for. -/
  quiet : Bool := false
  request : Request
deriving DecidableEq, Repr

/-- The lightest notes that are shown; `standard` applies where the command line says nothing. -/
def Invocation.threshold (i : Invocation) (standard : Level) : Level :=
  if i.quiet then .error
  else match i.verbosity with
    | 0 => standard
    | 1 => .info
    | _ => .debug

/-- The operands read so far. -/
structure Operands where
  name : Option LooseText := none
  url : Option LooseText := none
  format : Option Format := none
  path : Option LooseText := none
  source : Option ViewSource := some .database

namespace Operands

def namePositional (help : String) : Positional Operands :=
  { label := "name", help := help, store := fun words o => { o with name := words.head? } }

def urlPositional : Positional Operands :=
  { label := "url"
    help := "Connection URL, e.g. mysql://user:pw@host:3306/db."
    store := fun words o => { o with url := words.head? } }

def formatPositional : Positional Operands :=
  { label := "format"
    metavar := choiceMetavar (Format.all.map (·.word))
    choices := Format.all.map (·.word)
    store := fun words o => { o with format := (words.head?.bind (·.text?)).bind Format.ofWord? } }

def pathPositional : Positional Operands :=
  { label := "path", store := fun words o => { o with path := words.head? } }

def sourceFlag : Flag Operands :=
  { names := ["--source"]
    action := .value (choiceMetavar (ViewSource.all.map (·.word))) (ViewSource.all.map (·.word))
      fun word o => { o with source := (word.bind (·.text?)).bind ViewSource.ofWord? }
    help := "Where to read the schema from (default: database)." }

end Operands

/-- A command: its word, what it does, its operands, and what they ask for. -/
structure Command where
  word : String
  summary : String
  flags : List (Flag Operands) := []
  positionals : List (Positional Operands) := []
  request : Operands → Request

/-- The name of the program. -/
def program : String := "mysqltranslate"

/-- The number of the version. -/
def version : String := "0.1.0"

/-- The text that shows the version. -/
def versionText : String := s!"MySQL Translate v{version}"

namespace Command

open Operands

def grammar (c : Command) : Grammar Operands :=
  { program := program ++ " " ++ c.word
    sections := [("options", .forHelp :: c.flags)]
    positionals := c.positionals }

/-- All commands. The name of a database is there wherever its positional is required. -/
def all : List Command := [
  { word := "list"
    summary := "List registered databases and their files."
    request := fun _ => .list },
  { word := "add"
    summary := "Register a database."
    positionals := [namePositional "Display name.", urlPositional]
    request := fun o => .add (o.name.getD "") o.url },
  { word := "remove"
    summary := "Unregister a database."
    positionals := [namePositional ""]
    request := fun o => .remove (o.name.getD "") },
  { word := "map"
    summary := "Bind an output file to a database."
    positionals := [namePositional "", formatPositional, pathPositional]
    request := fun o => .bind (o.name.getD "") o.format o.path },
  { word := "sync"
    summary := "Introspect and write bound files."
    positionals := [{ namePositional "Only this database." with arity := .optional }]
    request := fun o => .sync o.name },
  { word := "view"
    summary := "Print a schema without writing it."
    flags := [sourceFlag]
    positionals := [namePositional "", formatPositional]
    request := fun o => .view (o.name.getD "") o.format o.source },
  { word := "write"
    summary := "Write one bound file."
    positionals := [namePositional "", formatPositional]
    request := fun o => .write (o.name.getD "") o.format }]

def ofWord? (word : String) : Option Command := all.find? (·.word = word)

end Command

/-- What is read before the command, and the command with its words. -/
structure Opening where
  config : Option (Option LooseText) := none
  verbosity : Nat := 0
  quiet : Bool := false
  words : List LooseText := []

namespace Opening

def versionFlag : Flag Opening :=
  { names := ["--version"], action := .version, help := "show program's version number and exit" }

def configFlag : Flag Opening :=
  { names := ["-c", "--config"]
    action := .value "PATH" [] fun path o => { o with config := some path }
    help := "Configuration file (JSON or YAML). Defaults come from $STORAGE." }

def verboseFlag : Flag Opening :=
  { names := ["-v", "--verbose"]
    action := .switch fun o => { o with verbosity := o.verbosity + 1 }
    help := "Increase verbosity (-v for INFO, -vv for DEBUG)." }

def quietFlag : Flag Opening :=
  { names := ["-q", "--quiet"]
    action := .switch fun o => { o with quiet := true }
    help := "Suppress all output except errors." }

def commandPositional : Positional Opening :=
  { label := "COMMAND"
    arity := .rest
    listing := Command.all.map fun c => (c.word, c.summary)
    store := fun words o => { o with words := words } }

def grammar : Grammar Opening :=
  { program := program
    description := ["MySQL Translate — introspect MySQL databases and keep JSON and Prisma schema "
      ++ "files in sync with them."]
    sections := [("options", [.forHelp, versionFlag, configFlag]),
      ("verbosity", [verboseFlag, quietFlag])]
    positionals := [commandPositional]
    epilog := "Examples:" :: ["add shop mysql://root:pw@localhost:3306/shop",
      "map shop prisma prisma/schema.prisma", "sync",
      "view shop prisma --source disk"].map fun words => s!"  {program} {words}" }

end Opening

/-- The outcome of a reading; one that stops early ends the run in the way of its grammar. -/
def settle {σ α : Type} (g : Grammar σ) : Except Stop α → Except Finished α
  | .ok a => .ok a
  | .error stop => .error (g.finish versionText stop)

/-- Reads a command line. Words that nothing claims are reported once all others are read. -/
def Invocation.parse (args : List LooseText) : Except Finished Invocation := do
  let (opening, before) ← settle Opening.grammar (Opening.grammar.read args {})
  let word := opening.words.headD ""
  match word.text?.bind Command.ofWord? with
  | none =>
    let choices := Command.all.map (·.word)
    settle Opening.grammar (.error (badChoice Opening.commandPositional.label choices word))
  | some c =>
    let (operands, after) ← settle c.grammar (c.grammar.read opening.words.tail {})
    match before ++ after with
    | [] =>
      return {
        config := opening.config
        verbosity := opening.verbosity
        quiet := opening.quiet
        request := c.request operands }
    | extras =>
      settle Opening.grammar
        (.error (.misuse (.text "unrecognized arguments: " ++ .joined " " extras)))

end CatalogSync.Cli
