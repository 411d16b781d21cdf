import CatalogSync.Json.Value
import CatalogSync.Number.Decimal
import CatalogSync.Text.Quoted

/-!
Writing JSON text, two spaces deeper at each level, one element or member to a line; an empty
array or object stays on one line. Characters past ASCII are written as they are; only quotes,
backslashes and control characters are escaped. `render` writes halves of surrogate pairs by their
replacement; in `written` they stand as they are.
-/

namespace CatalogSync.Json

/-- One character inside a string. -/
def escapedChar (c : Char) : List Char :=
  if c = '"' then ['\\', '"']
  else if c = '\\' then ['\\', '\\']
  else if c = '\n' then ['\\', 'n']
  else if c = '\r' then ['\\', 'r']
  else if c = '\t' then ['\\', 't']
  else if c = Char.ofNat 8 then ['\\', 'b']
  else if c = Char.ofNat 12 then ['\\', 'f']
  else if c.toNat < 0x20 then '\\' :: 'u' :: Text.hexDigits 4 c.toNat
  else [c]

/-- A string in double quotes. -/
def renderString (s : LooseText) : List Char := '"' :: s.shown.toList.flatMap escapedChar ++ ['"']

/-- A floating-point number, infinities and the undefined value by their words. -/
def renderFloat : Binary64 → List Char
  | .nan => "NaN".toList
  | .infinite negative => (if negative then "-Infinity" else "Infinity").toList
  | x => x.toText.toList

/-- The start of a line at a depth. -/
def lineStart (depth : Nat) : List Char := '\n' :: List.replicate (2 * depth) ' '

mutual

/-- The text of a value whose lines stand at `depth`. -/
def renderAt (depth : Nat) : Json → List Char
  | .null => "null".toList
  | .bool b => (if b then "true" else "false").toList
  | .int i => (toString i).toList
  | .float x => renderFloat x
  | .str s => renderString s
  | .arr [] => "[]".toList
  | .arr (first :: rest) =>
    '[' :: lineStart (depth + 1) ++ renderAt (depth + 1) first ++ renderRest (depth + 1) rest
      ++ lineStart depth ++ [']']
  | .obj [] => "\x7b\x7d".toList
  | .obj ((name, first) :: rest) =>
    '{' :: lineStart (depth + 1) ++ renderString name ++ ": ".toList ++ renderAt (depth + 1) first
      ++ renderMembers (depth + 1) rest ++ lineStart depth ++ ['}']

/-- The elements after the first. -/
def renderRest (depth : Nat) : List Json → List Char
  | [] => []
  | item :: rest => ',' :: lineStart depth ++ renderAt depth item ++ renderRest depth rest

/-- The members after the first. -/
def renderMembers (depth : Nat) : List (LooseText × Json) → List Char
  | [] => []
  | (name, item) :: rest =>
    ',' :: lineStart depth ++ renderString name ++ ": ".toList ++ renderAt depth item
      ++ renderMembers depth rest

end

/-- The text of a value. -/
def render (j : Json) : List Char := renderAt 0 j

mutual

/-- The texts in a value, names among them, in the order in which they are written. -/
def texts : Json → List LooseText
  | .str s => [s]
  | .arr items => textsOfItems items
  | .obj members => textsOfMembers members
  | _ => []

def textsOfItems : List Json → List LooseText
  | [] => []
  | item :: rest => texts item ++ textsOfItems rest

def textsOfMembers : List (LooseText × Json) → List LooseText
  | [] => []
  | (name, item) :: rest => name :: texts item ++ textsOfMembers rest

end

mutual

/-- The value with a character in the place of each half. -/
def shownBy (mark : Char) : Json → Json
  | .str s => .str (s.shownBy mark)
  | .arr items => .arr (itemsShownBy mark items)
  | .obj members => .obj (membersShownBy mark members)
  | j => j

def itemsShownBy (mark : Char) : List Json → List Json
  | [] => []
  | item :: rest => shownBy mark item :: itemsShownBy mark rest

def membersShownBy (mark : Char) : List (LooseText × Json) → List (LooseText × Json)
  | [] => []
  | (name, item) :: rest => (.text (name.shownBy mark), shownBy mark item) :: membersShownBy mark rest

end

/-- The text of a value, its halves among it. -/
def written (j : Json) : LooseText :=
  .written j.texts fun mark => render (j.shownBy mark)

end CatalogSync.Json
