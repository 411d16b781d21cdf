import CatalogSync.Text.Loose

/-!
The journal: what the program notes while it works, each note with a level and the name of the
part that wrote it.
-/

namespace CatalogSync

/-- The weight of a note, lightest first. -/
inductive Level where
  | debug
  | info
  | warning
  | error
  | critical
deriving DecidableEq, Repr

namespace Level

def name : Level → String
  | .debug => "DEBUG"
  | .info => "INFO"
  | .warning => "WARNING"
  | .error => "ERROR"
  | .critical => "CRITICAL"

def rank : Level → Nat
  | .debug => 10
  | .info => 20
  | .warning => 30
  | .error => 40
  | .critical => 50

/-- All levels, lightest first. -/
def all : List Level := [.debug, .info, .warning, .error, .critical]

/-- The level of a name in capitals. -/
def ofName? (s : String) : Option Level := all.find? (·.name = s)

end Level

/-- One note of the journal; `source` is the dotted name of the part that wrote it. -/
structure Note where
  level : Level
  source : String
  text : LooseText
deriving DecidableEq, Repr

/-- A note as one line of a plain list. -/
def Note.line (n : Note) : LooseText :=
  .text (n.level.name ++ " " ++ n.source ++ ": ") ++ n.text

end CatalogSync
