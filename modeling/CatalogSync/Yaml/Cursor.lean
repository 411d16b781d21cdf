import CatalogSync.Text.Blank

/-!
A place in a YAML text: what is still to be read, and the line and column reached. A line ends at a
line feed, a carriage return or the two together, a next-line control, or a separator of lines or
paragraphs. A byte order mark takes no column.

The modules from here to `CatalogSync.Yaml.Assembly` follow the safe loader of PyYAML 6, as far as it
is documented: it reads YAML 1.1, and constructs the values of the standard tags and no others. Line
breaks are those of the character productions of YAML 1.1.
-/

namespace CatalogSync.Yaml

structure Cursor where
  rest : List Char
  index : Nat := 0
  line : Nat := 0
  column : Nat := 0
deriving DecidableEq, Repr

/-- The mark that may stand in front of a text. -/
def byteOrderMark : Char := Char.ofNat 0xFEFF

/-- A character that ends a line. -/
def isBreak (c : Char) : Bool :=
  c = '\n' || c = '\r' || c.toNat = 0x85 || c.toNat = 0x2028 || c.toNat = 0x2029

/-- A space, a tab or the end of a line. -/
def isGap (c : Char) : Bool := c = ' ' || c = '\t' || isBreak c

/-- The end of the text, a space, a tab or the end of a line. -/
def endsWord : Option Char → Bool
  | none => true
  | some c => isGap c

/-- The end of the text, a space or the end of a line. -/
def endsItem : Option Char → Bool
  | none => true
  | some c => c = ' ' || isBreak c

namespace Cursor

def peek? (c : Cursor) : Option Char := c.rest.head?

/-- The character so many places further on. -/
def peekAt? (c : Cursor) (n : Nat) : Option Char := c.rest[n]?

/-- The place after the next character. -/
def next (c : Cursor) : Cursor :=
  match c.rest with
  | [] => c
  | a :: rest =>
    if isBreak a ∧ ¬(a = '\r' ∧ rest.head? = some '\n') then ⟨rest, c.index + 1, c.line + 1, 0⟩
    else ⟨rest, c.index + 1, c.line, if a = byteOrderMark then c.column else c.column + 1⟩

/-- The place so many characters further on. -/
def advance (c : Cursor) : Nat → Cursor
  | 0 => c
  | n + 1 => c.next.advance n

/-- The next characters and the place after them. -/
def take (c : Cursor) (n : Nat) : List Char × Cursor := (c.rest.take n, c.advance n)

/-- The longest stretch of characters that pass a test, and the place after it. -/
def span (p : Char → Bool) (c : Cursor) : List Char × Cursor :=
  c.take (c.rest.takeWhile p).length

/-- The place after the longest stretch of characters that pass a test. -/
def skip (p : Char → Bool) (c : Cursor) : Cursor := (c.span p).2

/-- The place after spaces. -/
def skipSpaces (c : Cursor) : Cursor := c.skip (· = ' ')

/-- The place after a comment, where one starts here. -/
def skipComment (c : Cursor) : Cursor := if c.peek? = some '#' then c.skip (!isBreak ·) else c

/-- The end of a line as it counts in a scalar, and the place after it; nothing where no line ends
here. -/
def lineBreak? (c : Cursor) : Option (Char × Cursor) :=
  match c.rest with
  | '\r' :: '\n' :: _ => some ('\n', c.advance 2)
  | a :: _ =>
    if a = '\n' ∨ a = '\r' ∨ a.toNat = 0x85 then some ('\n', c.next)
    else if isBreak a then some (a, c.next)
    else none
  | [] => none

/-- One of the two marks that bound a document stands here as a word. -/
def atSeparator (c : Cursor) : Bool :=
  (c.rest.take 3 = ['-', '-', '-'] || c.rest.take 3 = ['.', '.', '.']) && endsWord (c.peekAt? 3)

/-- The rest of a line on which only a comment may stand, and the place after it. -/
def endOfLine? (c : Cursor) : Option Cursor :=
  let c := c.skipSpaces.skipComment
  match c.peek? with
  | none => some c
  | some _ => c.lineBreak?.map (·.2)

end Cursor

end CatalogSync.Yaml
