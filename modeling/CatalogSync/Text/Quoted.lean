import CatalogSync.Text.Loose
import CatalogSync.Text.Printable
import CatalogSync.Text.Split

/-!
Quoted text, as messages show it. Single quotes are taken unless the text holds a single quote and
no double one. A backslash, the quote in use and the controls for line feed, carriage return and
tab are escaped by a letter; any other character that is not printable by its code point, in two,
four or eight hexadecimal digits; and half of a surrogate pair by its number.
-/

namespace CatalogSync.Text

/-- One hexadecimal digit, in lower case. -/
def hexDigit (n : Nat) : Char := if n < 10 then Char.ofNat (48 + n) else Char.ofNat (87 + n)

/-- The lowest hexadecimal digits of a number, `count` of them. -/
def hexDigits : Nat → Nat → List Char
  | 0, _ => []
  | count + 1, n => hexDigits count (n / 16) ++ [hexDigit (n % 16)]

/-- One character inside quotes. -/
def quotedChar (quote c : Char) : List Char :=
  if c = '\\' ∨ c = quote then ['\\', c]
  else if c = '\n' then ['\\', 'n']
  else if c = '\r' then ['\\', 'r']
  else if c = '\t' then ['\\', 't']
  else if isPrintable c then [c]
  else if c.toNat < 0x100 then '\\' :: 'x' :: hexDigits 2 c.toNat
  else if c.toNat < 0x10000 then '\\' :: 'u' :: hexDigits 4 c.toNat
  else '\\' :: 'U' :: hexDigits 8 c.toNat

/-- The quote that a text is shown in. -/
def quoteFor (s : List Char) : Char := if '\'' ∈ s ∧ '"' ∉ s then '"' else '\''

/-- A text in quotes. -/
def quoted (s : List Char) : List Char :=
  quoteFor s :: s.flatMap (quotedChar (quoteFor s)) ++ [quoteFor s]

/-- One code point inside quotes. -/
def quotedCode (quote : Char) (code : Nat) : List Char :=
  if isHalf code then halfEscape code else quotedChar quote (Char.ofNat code)

/-- A text in quotes, in which halves of surrogate pairs may stand. -/
def quotedLoose (t : LooseText) : List Char :=
  let quote := quoteFor t.shown.toList
  quote :: t.codes.flatMap (quotedCode quote) ++ [quote]

/-- A string in quotes. -/
def quotedString (s : String) : String := String.ofList (quoted s.toList)

/-- A list of strings in brackets, each in quotes. -/
def quotedList (items : List String) : String :=
  "[" ++ ", ".intercalate (items.map quotedString) ++ "]"

/-- One byte inside quotes: bytes outside printable ASCII by their value. -/
def quotedByte (quote : Char) (b : UInt8) : List Char :=
  let c := Char.ofNat b.toNat
  if c = '\\' ∨ c = quote then ['\\', c]
  else if c = '\n' then ['\\', 'n']
  else if c = '\r' then ['\\', 'r']
  else if c = '\t' then ['\\', 't']
  else if 0x20 ≤ b.toNat ∧ b.toNat < 0x7F then [c]
  else '\\' :: 'x' :: hexDigits 2 b.toNat

/-- Bytes in quotes, marked by a leading b. -/
def quotedBytes (bytes : List UInt8) : String :=
  let quote := quoteFor (bytes.map fun b => Char.ofNat b.toNat)
  String.ofList ('b' :: quote :: bytes.flatMap (quotedByte quote) ++ [quote])

end CatalogSync.Text
