import CatalogSync.Json.Reader
import CatalogSync.Yaml.Moment

/-!
The tags of YAML nodes. A scalar that is written plainly gets its tag by its form; any node may be
given one by its address.

The forms are those of the types of YAML 1.1 that the loader documents for plain scalars: null, truth
values, integers, floating-point numbers, timestamps, and the keys for merging and for default values.
A scalar of no such form is a string.
-/

namespace CatalogSync.Yaml

/-- The kind of value that a node stands for. -/
inductive Tag where
  | null
  | bool
  | int
  | float
  | binary
  | timestamp
  | orderedPairs
  | pairs
  | set
  | text
  | sequence
  | mapping
  | merge
  | value
  | other
deriving DecidableEq, Repr

/-! ## Plain scalars -/

namespace Plain

/-- Digits and underscores that start with a digit. -/
def isDigits (s : List Char) : Bool :=
  match s with
  | [] => false
  | c :: rest => c.isDigit && rest.all fun d => d.isDigit || d = '_'

/-- Digits and underscores, perhaps none. -/
def areDigits (s : List Char) : Bool := s.all fun d => d.isDigit || d = '_'

/-- A text without the sign in front of it. -/
def unsigned (s : List Char) : List Char :=
  match s with
  | '+' :: rest => rest
  | '-' :: rest => rest
  | _ => s

/-- One or two digits below sixty. -/
def isSixtieth (s : List Char) : Bool :=
  match s with
  | [a] => a.isDigit
  | [a, b] => '0' ≤ a && a ≤ '5' && b.isDigit
  | _ => false

def isNull (s : List Char) : Bool :=
  s = [] || ["~", "null", "Null", "NULL"].contains (String.ofList s)

def trueWords : List String :=
  ["yes", "Yes", "YES", "true", "True", "TRUE", "on", "On", "ON"]

def falseWords : List String :=
  ["no", "No", "NO", "false", "False", "FALSE", "off", "Off", "OFF"]

def isBool (s : List Char) : Bool := (trueWords ++ falseWords).contains (String.ofList s)

/-- Digits of a base that a letter names; underscores may stand among them. -/
def isBased (isDigit : Char → Bool) (s : List Char) : Bool :=
  !s.isEmpty && s.all fun c => isDigit c || c = '_'

/-- An integer: binary, octal, decimal, hexadecimal, or in groups of sixtieths. -/
def isInt (s : List Char) : Bool :=
  match unsigned s with
  | ['0'] => true
  | '0' :: 'b' :: rest => isBased (fun c => c = '0' || c = '1') rest
  | '0' :: 'x' :: rest => isBased (fun c => (Json.hexValue? c).isSome) rest
  | '0' :: rest => isBased (fun c => '0' ≤ c && c ≤ '7') rest
  | body =>
    match Text.splitOn [':'] body with
    | first :: groups => isDigits first && groups.all isSixtieth
    | [] => false

/-- What follows the digits of a number may be an exponent with a sign. -/
def isExponent (s : List Char) : Bool :=
  match s with
  | [] => true
  | e :: sign :: rest =>
    (e = 'e' || e = 'E') && (sign = '+' || sign = '-') && !rest.isEmpty && rest.all Char.isDigit
  | _ => false

/-- Digits and underscores, perhaps none, and perhaps an exponent. -/
def isFraction (s : List Char) : Bool :=
  isExponent (s.dropWhile fun d => d.isDigit || d = '_')

/-- A floating-point number: with a point, in groups of sixtieths with a point, or by its word. -/
def isFloat (s : List Char) : Bool :=
  let body := unsigned s
  if [".inf", ".Inf", ".INF"].contains (String.ofList body) then true
  else if [".nan", ".NaN", ".NAN"].contains (String.ofList s) then true
  else match Text.cutAt? '.' body with
    | none => false
    | some ([], places) => s = body && isDigits (places.take 1) && isFraction places
    | some (whole, places) =>
      (isDigits whole && isFraction places)
        || match Text.splitOn [':'] whole with
          | first :: group :: groups =>
            isDigits first && (group :: groups).all isSixtieth && areDigits places
          | _ => false

/-- A date in full, or a date and a time. -/
def isTimestamp (s : List Char) : Bool := (Day.ofText? 2 s).isSome || (Moment.ofText? s).isSome

/-- A text without the line feed at its end; one that is nothing else stays. -/
def withoutBreak (s : List Char) : List Char :=
  if s.getLast? = some '\n' ∧ s ≠ ['\n'] then s.dropLast else s

/-- The tag of a form. -/
def formTag (s : List Char) : Tag :=
  if isNull s then .null
  else if isBool s then .bool
  else if isFloat s then .float
  else if isInt s then .int
  else if s = ['<', '<'] then .merge
  else if isTimestamp s then .timestamp
  else if s = ['='] then .value
  else .text

/-- The tag of a plain scalar, by its form; a line feed at its end does not count. -/
def tag (s : List Char) : Tag := formTag (withoutBreak s)

end Plain

/-! ## Tags -/

namespace Tag

/-- The front of the addresses of standard tags. -/
def standard : List Char := "tag:yaml.org,2002:".toList

/-- The standard tags by the ends of their addresses. -/
def names : List (String × Tag) :=
  [("null", .null), ("bool", .bool), ("int", .int), ("float", .float), ("binary", .binary),
    ("timestamp", .timestamp), ("omap", .orderedPairs), ("pairs", .pairs), ("set", .set),
    ("str", .text), ("seq", .sequence), ("map", .mapping), ("merge", .merge), ("value", .value)]

/-- The tag of an address. -/
def ofAddress (s : List Char) : Tag :=
  match Text.after? standard s with
  | some name => ((names.find? (·.1.toList = name)).map (·.2)).getD .other
  | none => .other

end Tag

end CatalogSync.Yaml
