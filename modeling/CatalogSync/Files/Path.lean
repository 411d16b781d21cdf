import CatalogSync.Text.Split

/-!
Paths of files, kept as a root and the names that follow it. A path is normal from the start:
repeated slashes, single dots and a slash at the end have no trace in it, two dots are kept.
Exactly two slashes in front are a root of their own; one, three or more are the plain root.
-/

namespace CatalogSync

/-- Where a path starts. -/
inductive Root where
  | here
  | slash
  | doubleSlash
deriving DecidableEq, Repr

structure Path where
  root : Root
  parts : List String
deriving DecidableEq, Repr

namespace Path

/-- The root that the slashes in front of a text denote. -/
def rootOf (slashes : Nat) : Root :=
  if slashes = 0 then .here else if slashes = 2 then .doubleSlash else .slash

/-- The names between slashes, empty ones and single dots left out. -/
def partsOf (s : List Char) : List String :=
  ((Text.splitOn ['/'] s).filter fun p => !(p = [] ∨ p = ['.'])).map String.ofList

/-- Reads a path. -/
def ofString (s : String) : Path :=
  ⟨rootOf (s.toList.takeWhile (· = '/')).length, partsOf s.toList⟩

def Root.text : Root → String
  | .here => ""
  | .slash => "/"
  | .doubleSlash => "//"

/-- The text of a path; a path without names is a dot or its root. -/
def toString (p : Path) : String :=
  let s := Root.text p.root ++ "/".intercalate p.parts
  if s = "" then "." else s

/-- The path without its last name; a path without names is its own parent. -/
def parent (p : Path) : Path := { p with parts := p.parts.dropLast }

/-- One path after another; one that starts at a root replaces what stands before it. -/
def join (p q : Path) : Path := if q.root = .here then ⟨p.root, p.parts ++ q.parts⟩ else q

/-- The last name, the empty text where there is none. -/
def name (p : Path) : String := p.parts.getLastD ""

/-- The last dot of the last name and what follows it, unless the dot comes first or last. -/
def extension (p : Path) : String :=
  let name := p.name.toList
  match Text.cutAt? '.' name.reverse with
  | some (tail, front) => if tail = [] ∨ front = [] then "" else String.ofList ('.' :: tail.reverse)
  | none => ""

/-- A name of the path holds the character that ends texts at the system's border. -/
def hasNul (p : Path) : Bool := p.parts.any fun part => part.toList.contains (Char.ofNat 0)

end Path

end CatalogSync
