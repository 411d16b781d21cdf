import CatalogSync.Schema.Basic
import CatalogSync.Text.Split
import CatalogSync.Text.Blank

/-!
Reading a relation attribute. Its pieces stand between commas that are followed by a space and lie
outside of all brackets; each starts with a known key. Lists stand in brackets, a map name may
stand in quotes.
-/

namespace CatalogSync

/-- The kinds of brackets. -/
inductive Bracket where
  | round
  | square
  | curly
deriving DecidableEq, Repr

namespace Bracket

def all : List Bracket := [.round, .square, .curly]

def opener : Bracket → Char
  | .round => '('
  | .square => '['
  | .curly => '{'

def closer : Bracket → Char
  | .round => ')'
  | .square => ']'
  | .curly => '}'

end Bracket

def isOpener (c : Char) : Bool := Bracket.all.any (·.opener = c)

def isCloser (c : Char) : Bool := Bracket.all.any (·.closer = c)

namespace Relation

/-- How a character changes the number of brackets that are open, closing ones counting against
opening ones of any kind. -/
def depthChange (c : Char) : Int := if isOpener c then 1 else if isCloser c then -1 else 0

/-- The stretches between separators outside of brackets. `depth` counts the brackets that are
open, and `skip` is set where the space of a separator is still to be passed over. -/
def topLevelPieces (depth : Int) (skip : Bool) : List Char → List (List Char)
  | [] => [[]]
  | c :: rest =>
    if skip then topLevelPieces depth false rest
    else
      let depth := depth + depthChange c
      if depth = 0 ∧ Text.startsWith [',', ' '] (c :: rest) then
        [] :: topLevelPieces depth true rest
      else match topLevelPieces depth false rest with
        | [] => [[c]]
        | first :: others => (c :: first) :: others

/-- The pieces that are not blank, trimmed. -/
def trimmedPieces (pieces : List (List Char)) : List (List Char) :=
  (pieces.map Text.trim).filter (!·.isEmpty)

/-- The pieces of the text between the parentheses of a relation attribute. -/
def splitTopLevel (s : List Char) : List (List Char) := trimmedPieces (topLevelPieces 0 false s)

/-- A text without a pair of square brackets around it. -/
def withoutBrackets (s : List Char) : List Char :=
  match s with
  | '[' :: rest => if rest.getLast? = some ']' then rest.dropLast else s
  | _ => s

/-- Reads names that stand in brackets, or without brackets, between commas and spaces. -/
def parseList (s : List Char) : List String :=
  (trimmedPieces (Text.splitOn [',', ' '] (withoutBrackets (Text.trim s)))).map String.ofList

/-- A text without white space and a pair of double quotes around it. -/
def unquote (s : List Char) : List Char :=
  let s := Text.trim s
  match s with
  | '"' :: rest => if rest.getLast? = some '"' then rest.dropLast else s
  | _ => s

/-- The keys of the pieces of a relation attribute. -/
inductive PartKey where
  | fields
  | references
  | onDelete
  | onUpdate
  | map
deriving DecidableEq, Repr

namespace PartKey

def all : List PartKey := [.fields, .references, .onDelete, .onUpdate, .map]

def word : PartKey → String
  | .fields => "fields:"
  | .references => "references:"
  | .onDelete => "onDelete:"
  | .onUpdate => "onUpdate:"
  | .map => "map:"

end PartKey

/-- The key that a piece starts with, and what follows it. -/
def keyOf? (piece : List Char) : Option (PartKey × List Char) :=
  PartKey.all.findSome? fun key => (Text.after? key.word.toList piece).map fun rest => (key, rest)

/-- The relation with one more part set. -/
def setPart (r : Relation) (key : PartKey) (value : List Char) : Relation :=
  match key with
  | .fields => { r with fields := some (parseList value) }
  | .references => { r with references := some (parseList value) }
  | .onDelete => { r with onDelete := some (String.ofList (Text.trim value)) }
  | .onUpdate => { r with onUpdate := some (String.ofList (Text.trim value)) }
  | .map => { r with mapName := some (String.ofList (unquote value)) }

/-- Sets the parts that pieces give, from the left; of one key the last piece counts. -/
def addPieces (whole : List Char) (r : Relation) : List (List Char) → Except Fault Relation
  | [] => .ok r
  | piece :: rest =>
    match keyOf? piece with
    | some (key, value) => addPieces whole (r.setPart key value) rest
    | none => .error (.unknownRelationKey (String.ofList piece) (String.ofList whole))

/-- What stands between the name of the attribute with its parenthesis and the last parenthesis. -/
def body (s : List Char) : List Char :=
  let s := Text.trim s
  let s := (Text.after? "@relation(".toList s).getD s
  if s.getLast? = some ')' then s.dropLast else s

/-- Reads a relation attribute. -/
def parse (s : List Char) : Except Fault Relation := addPieces s {} (splitTopLevel (body s))

end Relation

end CatalogSync
