import CatalogSync.Cli.Finished
import CatalogSync.Cli.Reading
import CatalogSync.Text.Blank

/-!
The usage and the help that a grammar prints. Lines are filled up to a fixed width; in the help the
texts stand in a column of their own, and a header that reaches into it has a line to itself.
-/

namespace CatalogSync.Cli

/-- The longest line of a help text. -/
def lineWidth : Nat := 78

/-- The rightmost place of the column of help texts. -/
def maxHelpColumn : Nat := 24

/-- How far the items of a section are set in. -/
def itemIndent : Nat := 2

def spaces (n : Nat) : String := String.ofList (List.replicate n ' ')

/-- Words filled into lines of a width, starting with a line already begun; a word that is too long
has a line to itself. -/
def fillFrom (width : Nat) (line : String) : List String → List String
  | [] => [line]
  | word :: rest =>
    let longer := line ++ " " ++ word
    if longer.length ≤ width then fillFrom width longer rest else line :: fillFrom width word rest

/-- Words filled into lines of a width. -/
def fill (width : Nat) : List String → List String
  | [] => []
  | word :: rest => fillFrom width word rest

/-- The words of a text, between single spaces. -/
def wordsOfText (text : String) : List String :=
  (Text.words text.toList).map String.ofList

/-- One item of a help text: how far it is set in, its header, and its text. -/
structure HelpItem where
  indent : Nat
  header : String
  text : String

/-- The lines of an item with its text in a column. -/
def HelpItem.lines (column : Nat) (item : HelpItem) : List String :=
  let margin := spaces column
  let texts := fill (lineWidth - column) (wordsOfText item.text)
  let header := spaces item.indent ++ item.header
  if header.length + 2 ≤ column then
    match texts with
    | [] => [header]
    | first :: others =>
      (header ++ spaces (column - header.length) ++ first) :: others.map (margin ++ ·)
  else header :: texts.map (margin ++ ·)

namespace Flag

variable {σ : Type}

/-- A name of a flag followed by what it takes. -/
def shown (f : Flag σ) (name : String) : String :=
  match f.action with
  | .value metavar _ _ => name ++ " " ++ metavar
  | _ => name

/-- The part of the usage for a flag. -/
def usage (f : Flag σ) : String := "[" ++ f.shown (f.names.headD "") ++ "]"

def helpItem (f : Flag σ) : HelpItem := ⟨itemIndent, ", ".intercalate (f.names.map f.shown), f.help⟩

end Flag

namespace Positional

variable {σ : Type}

/-- The part of the usage for a positional. -/
def usage (p : Positional σ) : String :=
  match p.arity with
  | .one => p.metavar
  | .optional => "[" ++ p.metavar ++ "]"
  | .rest => p.metavar ++ " ..."

/-- A positional and its listed choices below it. -/
def helpItems (p : Positional σ) : List HelpItem :=
  ⟨itemIndent, p.metavar, p.help⟩
    :: p.listing.map fun choice => ⟨itemIndent + itemIndent, choice.1, choice.2⟩

end Positional

namespace Grammar

variable {σ : Type}

/-- The usage, on one line if it fits, otherwise flags and positionals on lines of their own. -/
def usage (g : Grammar σ) : String :=
  let start := "usage: " ++ g.program
  let flags := g.flags.map (·.usage)
  let positionals := g.positionals.map (·.usage)
  let line := " ".intercalate (start :: flags ++ positionals)
  if line.length ≤ lineWidth then line
  else
    let margin := "\n" ++ spaces (start.length + 1)
    let width := lineWidth - (start.length + 1)
    start ++ " " ++ margin.intercalate (fill width flags ++ fill width positionals)

/-- The titled groups of items. -/
def helpSections (g : Grammar σ) : List (String × List HelpItem) :=
  ("positional arguments", g.positionals.flatMap (·.helpItems))
    :: g.sections.map fun s => (s.1, s.2.map (·.helpItem))

/-- The place of the column of help texts. -/
def helpColumn (g : Grammar σ) : Nat :=
  let headers := g.helpSections.flatMap fun s => s.2.map (·.header.length)
  min maxHelpColumn (headers.foldl max 0 + itemIndent + 2)

/-- The help: paragraphs with an empty line between them. -/
def help (g : Grammar σ) : String :=
  let sections := (g.helpSections.filter (!·.2.isEmpty)).map fun s =>
    (s.1 ++ ":") :: s.2.flatMap (·.lines g.helpColumn)
  let paragraphs := [g.usage] :: g.description :: sections ++ [g.epilog]
  "\n\n".intercalate ((paragraphs.filter (!·.isEmpty)).map ("\n".intercalate ·)) ++ "\n"

/-- How the program ends when reading stops early; `version` is the text that shows its version. -/
def finish (g : Grammar σ) (version : String) : Stop → Finished
  | .help => { exit := .ok .success, output := g.help }
  | .version => { exit := .ok .success, output := version ++ "\n" }
  | .misuse message =>
    { exit := .ok .malformed
      errors := g.usage ++ "\n" ++ g.program ++ ": error: " ++ message.escaped ++ "\n" }

end Grammar

end CatalogSync.Cli
