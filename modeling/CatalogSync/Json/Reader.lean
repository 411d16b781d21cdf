import CatalogSync.Json.Value
import CatalogSync.Number.Numeral
import CatalogSync.Room

/-!
Reading JSON text. The reader is strict: one value with white space around it, no comments, no
comma before a closing bracket, no control character inside a string. Beyond the standard it knows
the three words for numbers that are not finite. A text that starts with a byte order mark is
refused like any other text that starts with no value. Integers are limited in length, arrays and
objects in depth, and what goes beyond ends the reading where it stands.
-/

namespace CatalogSync.Json

/-- What holds other values. -/
inductive Container where
  | array
  | object
deriving DecidableEq, Repr

/-- The word by which messages name a container. -/
def Container.word : Container → String
  | .array => "array"
  | .object => "object"

/-- What is being done while a container is read. -/
def Container.reading (c : Container) : String :=
  s!" while decoding a JSON {c.word} from a unicode string"

/-- Why a text is not read. -/
inductive ReadFault where
  | malformed
  | longInteger (digits : Nat)
  | tooDeep (innermost : Container)
deriving DecidableEq, Repr

/-- A part of a text, which is malformed where the part is not found. -/
def found {α : Type} : Option α → Except ReadFault α
  | some a => .ok a
  | none => .error .malformed

def isSpace (c : Char) : Bool := c = ' ' || c = '\t' || c = '\n' || c = '\r'

def skipSpace (s : List Char) : List Char := s.dropWhile isSpace

/-- The value of a hexadecimal digit in either case. -/
def hexValue? (c : Char) : Option Nat :=
  if '0' ≤ c ∧ c ≤ '9' then some (c.toNat - 48)
  else if 'a' ≤ c ∧ c ≤ 'f' then some (c.toNat - 87)
  else if 'A' ≤ c ∧ c ≤ 'F' then some (c.toNat - 55)
  else none

/-- The unit that four hexadecimal digits stand for. -/
def hexUnit? (a b c d : Char) : Option Nat := do
  return ((← hexValue? a) * 16 + (← hexValue? b)) * 256 + (← hexValue? c) * 16 + (← hexValue? d)

/-- The character that a letter after a backslash stands for. -/
def escaped? : Char → Option Char
  | '"' => some '"'
  | '\\' => some '\\'
  | '/' => some '/'
  | 'b' => some (Char.ofNat 8)
  | 'f' => some (Char.ofNat 12)
  | 'n' => some '\n'
  | 'r' => some '\r'
  | 't' => some '\t'
  | _ => none

/-- The units of a string up to its closing quote, and the text after that. A unit is a code point
or, where it was written by number, half a pair perhaps. -/
def stringUnits : List Char → Option (List Nat × List Char)
  | [] => none
  | '"' :: rest => some ([], rest)
  | '\\' :: 'u' :: a :: b :: c :: d :: rest =>
    match hexUnit? a b c d, stringUnits rest with
    | some unit, some (units, after) => some (unit :: units, after)
    | _, _ => none
  | '\\' :: c :: rest =>
    match escaped? c, stringUnits rest with
    | some c, some (units, after) => some (c.toNat :: units, after)
    | _, _ => none
  | c :: rest =>
    if c.toNat < 0x20 ∨ c = '\\' then none
    else match stringUnits rest with
      | some (units, after) => some (c.toNat :: units, after)
      | none => none

/-- The code points that units stand for; two halves of a pair make one, and a half may stand alone.
-/
def joinUnits : List Nat → List Nat
  | [] => []
  | [a] => [a]
  | a :: b :: rest =>
    if 0xD800 ≤ a ∧ a < 0xDC00 ∧ 0xDC00 ≤ b ∧ b < 0xE000 then
      (0x10000 + (a - 0xD800) * 0x400 + (b - 0xDC00)) :: joinUnits rest
    else a :: joinUnits (b :: rest)

/-- A string after its opening quote. -/
def stringBody (s : List Char) : Option (LooseText × List Char) :=
  (stringUnits s).map fun p => (.ofCodes (joinUnits p.1), p.2)

/-- Digits in front of a text and what follows them. -/
def spanDigits (s : List Char) : List Char × List Char :=
  (s.takeWhile Char.isDigit, s.dropWhile Char.isDigit)

/-- The digits of a fraction where a point and a digit follow. -/
def fraction (s : List Char) : List Char × List Char :=
  match s with
  | '.' :: rest => if (spanDigits rest).1 = [] then ([], s) else spanDigits rest
  | _ => ([], s)

/-- An exponent where one follows. -/
def exponent? (s : List Char) : Option (Int × List Char) :=
  match s with
  | e :: rest =>
    if e = 'e' ∨ e = 'E' then
      let (negative, rest) := match rest with
        | '-' :: more => (true, more)
        | '+' :: more => (false, more)
        | _ => (false, rest)
      let (ds, after) := spanDigits rest
      if ds = [] then none
      else
        let n : Int := digitsValue ds
        some (if negative then -n else n, after)
    else none
  | [] => none

/-- A number: no zero in front of further digits; a fraction or an exponent makes it a
floating-point number. -/
def number (s : List Char) : Except ReadFault (Json × List Char) :=
  let (negative, s) := match s with
    | '-' :: rest => (true, rest)
    | _ => (false, s)
  let (whole, rest) := match s with
    | '0' :: rest => (['0'], rest)
    | _ => spanDigits s
  if whole = [] then .error .malformed
  else
    let (places, rest') := fraction rest
    match exponent? rest' with
    | some (e, after) =>
      .ok (.float (.ofDecimal negative (digitsValue (whole ++ places)) (e - places.length)), after)
    | none =>
      if places ≠ [] then
        .ok (.float (.ofDecimal negative (digitsValue (whole ++ places)) (-places.length)), rest')
      else if Numeral.maxLength < whole.length then .error (.longInteger whole.length)
      else
        let n : Int := digitsValue whole
        .ok (.int (if negative then -n else n), rest)

/-- A word that stands for a value, at the start of a text. -/
def literal? (s : List Char) : Option (Json × List Char) :=
  literals.findSome? fun entry => (dropWord entry.1.toList s).map fun rest => (entry.2, rest)
where
  literals : List (String × Json) :=
    [("null", .null), ("true", .bool true), ("false", .bool false), ("NaN", .float .nan),
      ("Infinity", .float (.infinite false)), ("-Infinity", .float (.infinite true))]
  dropWord : List Char → List Char → Option (List Char)
    | [], s => some s
    | _ :: _, [] => none
    | a :: word, b :: s => if a = b then dropWord word s else none

mutual

/-- The value at the start of a text, and the text after it; `room` is left for containers, and no
step goes deeper than `fuel`. -/
def value (room : Nat) : Nat → List Char → Except ReadFault (Json × List Char)
  | 0, _ => .error .malformed
  | fuel + 1, s =>
    match s with
    | '"' :: rest => (found (stringBody rest)).map fun p => (.str p.1, p.2)
    | '[' :: rest =>
      if room = 0 then .error (.tooDeep .array)
      else match skipSpace rest with
        | ']' :: after => .ok (.arr [], after)
        | inner => (elements (room - 1) fuel inner).map fun p => (.arr p.1, p.2)
    | '{' :: rest =>
      if room = 0 then .error (.tooDeep .object)
      else match skipSpace rest with
        | '}' :: after => .ok (.obj [], after)
        | inner => (members (room - 1) fuel inner).map fun p => (ofMembers p.1, p.2)
    | _ =>
      match literal? s with
      | some p => .ok p
      | none => number s

/-- The elements of an array that is not empty, up to its closing bracket. -/
def elements (room : Nat) : Nat → List Char → Except ReadFault (List Json × List Char)
  | 0, _ => .error .malformed
  | fuel + 1, s => do
    let (first, rest) ← value room fuel s
    match skipSpace rest with
    | ']' :: after => .ok ([first], after)
    | ',' :: more =>
      let (others, after) ← elements room fuel (skipSpace more)
      .ok (first :: others, after)
    | _ => .error .malformed

/-- The members of an object that is not empty, up to its closing brace. -/
def members (room : Nat) :
    Nat → List Char → Except ReadFault (List (LooseText × Json) × List Char)
  | 0, _ => .error .malformed
  | fuel + 1, s =>
    match s with
    | '"' :: rest => do
      let (name, rest) ← found (stringBody rest)
      match skipSpace rest with
      | ':' :: rest =>
        let (first, rest) ← value room fuel (skipSpace rest)
        match skipSpace rest with
        | '}' :: after => .ok ([(name, first)], after)
        | ',' :: more =>
          let (others, after) ← members room fuel (skipSpace more)
          .ok ((name, first) :: others, after)
        | _ => .error .malformed
      | _ => .error .malformed
    | _ => .error .malformed

end

/-- Reads a text that holds one value. -/
def read [Room] (s : List Char) : Except ReadFault Json := do
  let (j, rest) ← value Room.json (s.length + 1) (skipSpace s)
  if skipSpace rest = [] then .ok j else .error .malformed

end CatalogSync.Json
