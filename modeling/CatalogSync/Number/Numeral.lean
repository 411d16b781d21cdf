import CatalogSync.Text.Blank
import CatalogSync.Text.Split

/-!
Integers written in text. A plain numeral is a minus sign, perhaps, and digits without a zero in
front of them. A written integer may be dressed up: white space around it, a plus sign, zeros
between the sign and its digits, a fraction of zeros, single underscores between its characters. It
is read by taking these off and reading what remains as a plain numeral.
-/

namespace CatalogSync

/-- The number that decimal digits write. -/
def digitsValue (ds : List Char) : Nat := ds.foldl (fun n c => n * 10 + (c.toNat - 48)) 0

namespace Numeral

/-- Why a text is no integer. -/
inductive Fault where
  | malformed
  | tooLong
deriving DecidableEq, Repr

/-- The most digits of a numeral that is read. -/
def maxLength : Nat := 4300

/-- Reads a plain numeral. One that is too long is refused before what follows it is looked at. -/
def plain (s : List Char) : Except Fault Int :=
  let (negative, body) := match s with
    | '-' :: rest => (true, rest)
    | _ => (false, s)
  let ds := body.takeWhile Char.isDigit
  if ds = [] ∨ (ds.head? = some '0' ∧ 1 < ds.length) then .error .malformed
  else if maxLength < ds.length then .error .tooLong
  else if ds.length < body.length then .error .malformed
  else
    let n : Int := digitsValue ds
    .ok (if negative then -n else n)

/-- White space around an integer; the separators of files, groups, records and units are none. -/
def isPadding (c : Char) : Bool := Text.isBlank c && !(0x1C ≤ c.toNat && c.toNat ≤ 0x1F)

/-- A text without the sign in front of it, and whether that is a minus sign. No minus sign may
follow it. -/
def unsigned? : List Char → Option (Bool × List Char)
  | '+' :: '-' :: _ => none
  | '-' :: '-' :: _ => none
  | '+' :: rest => some (false, rest)
  | '-' :: rest => some (true, rest)
  | s => some (false, s)

/-- A text without zeros and underscores in front, as long as a digit, a minus sign or a fraction
follows them; a fraction keeps the character before it, and so does the end of the text. -/
def withoutZeros? : List Char → Option (List Char)
  | '0' :: rest => skip '0' rest
  | s => if startsNumeral s then some s else none
where
  startsNumeral : List Char → Bool
    | c :: _ => c = '-' || ('1' ≤ c && c ≤ '9')
    | [] => false
  skip (last : Char) : List Char → Option (List Char)
    | [] => some [last]
    | '.' :: rest => some (last :: '.' :: rest)
    | c :: rest =>
      if c = '0' ∨ c = '_' then skip c rest
      else if startsNumeral (c :: rest) then some (c :: rest)
      else none

/-- A text without a fraction; there must be zeros in it and nothing else. -/
def withoutFraction? (s : List Char) : Option (List Char) :=
  match Text.cutAt? '.' s with
  | some (whole, places) => if places ≠ [] ∧ places.all (· = '0') then some whole else none
  | none => some s

/-- No two underscores follow one another. -/
def hasSingleUnderscores : List Char → Bool
  | '_' :: '_' :: _ => false
  | _ :: rest => hasSingleUnderscores rest
  | [] => true

/-- A text without single underscores inside of it. -/
def withoutUnderscores (s : List Char) : List Char :=
  if s.head? ≠ some '_' ∧ s.getLast? ≠ some '_' ∧ hasSingleUnderscores s then s.filter (· ≠ '_')
  else s

/-- What remains of a written integer when everything around its digits is taken off. -/
def bare? (s : List Char) : Option (List Char) := do
  let (negative, s) ← unsigned? (Text.dropTrailing isPadding (s.dropWhile isPadding))
  let s ← withoutFraction? (← withoutZeros? s)
  return withoutUnderscores (if negative then '-' :: s else s)

/-- The integer that a text holds. Only a text that starts as a plain numeral is told to be too
long. -/
def read (s : List Char) : Except Fault Int :=
  match plain s with
  | .error .malformed =>
    match (bare? s).map plain with
    | some (.ok i) => .ok i
    | _ => .error .malformed
  | result => result

end Numeral

end CatalogSync
