import CatalogSync.Text.Loose

/-!
Checked values. A check either gives a value or all the faults it found; checks of several fields
run side by side, so that the faults of every field are reported, in the order of the fields.
-/

namespace CatalogSync

/-- A step from a record to one of its parts: a field, an item of a list, or a key that is a
number. -/
inductive Segment where
  | name (value : String)
  | index (value : Nat)
  | number (value : Int)
deriving DecidableEq, Repr

/-- What is wrong with a part of a record. -/
inductive FaultKind where
  | missing
  | unknownField
  | stringType
  | stringTooShort
  /-- Bytes that are no text, or a text that no bytes encode. -/
  | stringEncoding
  | listType
  | listTooShort
  | recordType
  | boolType
  | boolParsing
  | intType
  | intParsing
  /-- The integer is too long, or too large for the number it was given as. -/
  | intSize
  | intFromFraction
  | notFinite
  | tooSmall
  | notInEnumeration
  | notTheLiteral
  | invalidKey
  | unknownAttribute
  | rule (message : LooseText)
deriving DecidableEq, Repr

/-- What keeps the wording of a broken rule from being encoded. -/
def FaultKind.halfFault? : FaultKind → Option Text.HalfFault
  | .rule message => message.halfFault?
  | _ => none

/-- A fault and the path to the part that has it; the empty path is the whole record. -/
structure FieldFault where
  path : List Segment
  kind : FaultKind
deriving DecidableEq, Repr

/-- The fault seen from a record that holds the faulty one under `segment`. -/
def FieldFault.under (segment : Segment) (f : FieldFault) : FieldFault :=
  { f with path := segment :: f.path }

/-- A value, or the faults that stand against it. -/
inductive Validated (α : Type) where
  | valid (value : α)
  | invalid (faults : List FieldFault)
deriving Repr

namespace Validated

variable {α β : Type}

/-- A single fault of the whole value. -/
def fault (kind : FaultKind) : Validated α := .invalid [⟨[], kind⟩]

def faults : Validated α → List FieldFault
  | .valid _ => []
  | .invalid fs => fs

def map (f : α → β) : Validated α → Validated β
  | .valid a => .valid (f a)
  | .invalid fs => .invalid fs

/-- Applies a checked function to a checked value; the faults of both are kept. -/
def apply (f : Validated (α → β)) (x : Validated α) : Validated β :=
  match f, x with
  | .valid f, .valid a => .valid (f a)
  | f, x => .invalid (f.faults ++ x.faults)

instance : Applicative Validated where
  pure := .valid
  seq f x := apply f (x ())

/-- A further check of a value that passed. -/
def andThen (x : Validated α) (f : α → Validated β) : Validated β :=
  match x with
  | .valid a => f a
  | .invalid fs => .invalid fs

/-- The value, if no further faults are found. -/
def withFaults (x : Validated α) (more : List FieldFault) : Validated α :=
  match x, more with
  | x, [] => x
  | x, more => .invalid (x.faults ++ more)

/-- A check of a part, its faults reported from the whole. -/
def under (segment : Segment) : Validated α → Validated α
  | .valid a => .valid a
  | .invalid fs => .invalid (fs.map (·.under segment))

/-- All values of a list, or all their faults. -/
def sequence : List (Validated α) → Validated (List α)
  | [] => .valid []
  | x :: rest =>
    match x, sequence rest with
    | .valid a, .valid as => .valid (a :: as)
    | x, r => .invalid (x.faults ++ r.faults)

def toOption : Validated α → Option α
  | .valid a => some a
  | .invalid _ => none

end Validated

end CatalogSync
