import CatalogSync.Schema.Parse
import CatalogSync.Schema.Render

/-!
Writing a schema as text and reading the text back. A schema makes the round trip where its text
reads as the schema itself, widths included.
-/

namespace CatalogSync.Schema

variable [Room]

/-- The schema that the text of a schema is read as. -/
def reread (s : Schema) : Except Fault Schema := s.text.bind Schema.parse

/-- Whether the text of a schema is read as the schema itself. -/
def roundTrips (s : Schema) : Except Fault Bool := s.reread.map (· = s)

/-- What is noted while a schema is written and read back. -/
def roundTripNotes (s : Schema) : List Note :=
  match s.text with
  | .ok text => s.renderNotes ++ Schema.parseNotes text
  | .error _ => []

theorem roundTrips_eq_true_iff (s : Schema) : s.roundTrips = .ok true ↔ s.reread = .ok s := by
  cases h : s.reread <;> simp [roundTrips, h, Except.map]

end CatalogSync.Schema
