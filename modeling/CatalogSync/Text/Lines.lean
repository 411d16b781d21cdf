/-!
Lines of a text. A line ends at a line feed, a carriage return, the two together, a vertical tab,
a form feed, a separator of files, groups or records, a next-line control, or a separator of lines
or paragraphs. A text file as read has line feeds only: `unifyBreaks` turns the other two ways of
ending a line into one line feed.
-/

namespace CatalogSync.Text

/-- A character that ends a line. -/
def isLineBreak (c : Char) : Bool :=
  let n := c.toNat
  (0x0A ≤ n && n ≤ 0x0D) || (0x1C ≤ n && n ≤ 0x1E) || n == 0x85 || n == 0x2028 || n == 0x2029

/-- The lines of a text, the last one also where no break ends it. -/
def lines : List Char → List (List Char)
  | [] => []
  | '\r' :: '\n' :: rest => [] :: lines rest
  | c :: rest =>
    if isLineBreak c then [] :: lines rest
    else match lines rest with
      | [] => [[c]]
      | first :: others => (c :: first) :: others

/-- The text with every carriage return, alone or before a line feed, made one line feed. -/
def unifyBreaks : List Char → List Char
  | [] => []
  | '\r' :: '\n' :: rest => '\n' :: unifyBreaks rest
  | c :: rest => (if c = '\r' then '\n' else c) :: unifyBreaks rest

end CatalogSync.Text
