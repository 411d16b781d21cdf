import CatalogSync.Fault
import CatalogSync.Text.Blank
import CatalogSync.Text.Casing

/-!
The formats in which a catalog is written to a file.
-/

namespace CatalogSync

inductive Format where
  | json
  | prisma
deriving DecidableEq, Repr

namespace Format

def word : Format → String
  | .json => "json"
  | .prisma => "prisma"

def all : List Format := [.json, .prisma]

def ofWord? (s : String) : Option Format := all.find? (·.word = s)

/-- The format that a text names in any letter case and with white space around it. -/
def parse (s : String) : Except Fault Format :=
  match ofWord? (String.ofList (Text.lower (Text.trim s.toList))) with
  | some f => .ok f
  | none => .error (.unknownFormat s)

theorem ofWord?_word (f : Format) : ofWord? f.word = some f := by cases f <;> decide

end Format

end CatalogSync
