import CatalogSync.Number.Decimal
import CatalogSync.Text.Quoted
import CatalogSync.Text.Utf8

/-!
Cells of catalog rows. Some drivers deliver text as bytes: `Cell.text?` reads both alike, while
`Cell.display` shows bytes as bytes.
-/

namespace CatalogSync

inductive Cell where
  | null
  | bool (value : Bool)
  | int (value : Int)
  | float (value : Binary64)
  | text (value : String)
  | bytes (value : List UInt8)
deriving DecidableEq, Repr

/-- One row of a query's result. -/
abbrev Row := List Cell

namespace Cell

/-- The text that stands for a cell, each kind in its own way. -/
def display : Cell → String
  | .null => "None"
  | .bool b => if b then "True" else "False"
  | .int i => toString i
  | .float x => x.toText
  | .text s => s
  | .bytes b => Text.quotedBytes b

/-- The text that a cell holds: nothing for null, bytes by their encoding. -/
def text? : Cell → Except Text.Utf8Fault String
  | .null => .ok ""
  | .bytes b => (Text.decode b).map String.ofList
  | c => .ok c.display

end Cell

end CatalogSync
