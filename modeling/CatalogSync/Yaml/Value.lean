import CatalogSync.Number.Decimal
import CatalogSync.Text.Casing
import CatalogSync.Text.Word
import CatalogSync.Yaml.Tag

/-!
The values that YAML scalars denote, and when two of them are one key of a mapping. Of collections
it only matters of which kind they are. Numbers are read with white space around them and a sign in
front, their digits in any script.

The loader documents a value for each standard tag of YAML 1.1: integers in base two, eight, ten,
sixteen or in groups of sixty, floating-point numbers also as infinite or undefined, truth values by
their words, and bytes in base 64.
-/

namespace CatalogSync.Yaml

/-- A value. An undefined number is one with those of the same origin and with no other: those
written by the word for it have one origin, any other has its node. -/
inductive Value where
  | null
  | bool (value : Bool)
  | int (value : Int)
  | float (value : Binary64)
  | undefined (origin : Option Nat)
  | text (value : LooseText)
  | bytes (value : List UInt8)
  | date (value : Day)
  | moment (value : Moment)
  | sequence
  | set
  | mapping
deriving DecidableEq, Repr

namespace Value

/-- The word by which messages name the kind of a value. -/
def kindName : Value → String
  | .null => "NoneType"
  | .bool _ => "bool"
  | .int _ => "int"
  | .float _ => "float"
  | .undefined _ => "float"
  | .text _ => "str"
  | .bytes _ => "bytes"
  | .date _ => "date"
  | .moment _ => "datetime"
  | .sequence => "list"
  | .set => "set"
  | .mapping => "dict"

/-- A value that may be a key. -/
def isKey : Value → Bool
  | .sequence => false
  | .set => false
  | .mapping => false
  | _ => true

/-- The integer that a key counts as; a number without a fraction is one. -/
def integer? : Value → Option Int
  | .bool b => some (if b then 1 else 0)
  | .int i => some i
  | .float x => x.toInt?
  | _ => none

/-- Two keys are one. -/
def sameKey (v w : Value) : Bool :=
  match v.integer?, w.integer? with
  | some i, some j => i = j
  | none, none =>
    match v, w with
    | .moment a, .moment b => a.same b
    | v, w => v = w
  | _, _ => false

/-- Sets the value of a key, in place where the key is known and at the end otherwise. -/
def put (entries : List (Value × Value)) (k v : Value) : List (Value × Value) :=
  match entries with
  | [] => [(k, v)]
  | (k', v') :: rest => if sameKey k' k then (k', v) :: rest else (k', v') :: put rest k v

/-! ## Numbers -/

/-- A character of a number in ASCII. -/
def plainChar (c : Char) : Char :=
  if c.toNat < 0x7F then c
  else if Text.isBlank c then ' '
  else match Text.digit? c with
    | some d => Char.ofNat (48 + d)
    | none => '?'

/-- White space around a number. -/
def isPadding (c : Char) : Bool := c = ' ' || (9 ≤ c.toNat && c.toNat ≤ 13)

/-- A number in ASCII, without the white space in front of it. -/
def plainNumber (s : List Char) : List Char := (s.map plainChar).dropWhile isPadding

/-- The letter that may introduce the digits of a base. -/
def baseLetter? (base : Nat) : Option Char :=
  if base = 2 then some 'b' else if base = 8 then some 'o' else if base = 16 then some 'x' else none

/-- A text without the zero and the letter that introduce the digits of a base. -/
def withoutBase (base : Nat) (s : List Char) : List Char :=
  match s with
  | '0' :: letter :: rest => if baseLetter? base = some letter.toLower then rest else s
  | _ => s

/-- A digit of a base. -/
def isDigitOf (base : Nat) (c : Char) : Bool :=
  match Json.hexValue? c with
  | some d => d < base
  | none => false

/-- The number that digits of a base write, with a sign in front. Only numbers of base ten are
limited in length. A refusal names all of the text. -/
def digits (base : Nat) (s : List Char) : Except Refusal Int :=
  let signed := plainNumber s
  let body := withoutBase base (Plain.unsigned signed)
  let ds := body.takeWhile (isDigitOf base)
  if base = 10 ∧ Numeral.maxLength < ds.length then .error (.longInteger ds.length)
  else if ds = [] ∨ !(body.drop ds.length).all isPadding then
    .error (.noInteger base (String.ofList s))
  else
    let size : Nat := (ds.filterMap Json.hexValue?).foldl (fun n d => n * base + d) 0
    .ok (if signed.head? = some '-' then -size else size)

/-- The value of groups of sixtieths, the least last. -/
def sixtieths (groups : List Int) : Int := groups.foldl (fun n g => n * 60 + g) 0

/-- An integer in one of its forms, underscores passed over. -/
def integer (s : List Char) : Except Refusal Value := do
  let s := s.filter (· ≠ '_')
  let body := Plain.unsigned s
  let size ← match body with
    | [] => throw .noDigits
    | ['0'] => pure 0
    | '0' :: 'b' :: rest => digits 2 rest
    | '0' :: 'x' :: rest => digits 16 rest
    | '0' :: _ => digits 8 body
    | _ => (sixtieths ·) <$> (Text.splitOn [':'] body).mapM (digits 10)
  return .int (if s.head? = some '-' then -size else size)

/-- A floating-point number as a decimal with or without point and exponent, or by its word, with
a sign in front. -/
def floatText? (s : List Char) : Option Binary64 :=
  let s := Text.dropTrailing isPadding (plainNumber s)
  let negative := s.head? = some '-'
  let body := Plain.unsigned s
  let whole := body.takeWhile Char.isDigit
  let rest := body.dropWhile Char.isDigit
  let (places, rest) := match rest with
    | '.' :: rest => (rest.takeWhile Char.isDigit, rest.dropWhile Char.isDigit)
    | _ => ([], rest)
  let number (exponent : Int) : Binary64 :=
    .ofDecimal negative (digitsValue (whole ++ places)) (exponent - places.length)
  if body = "inf".toList ∨ body = "infinity".toList then some (.infinite negative)
  else if body = "nan".toList then some .nan
  else if whole ++ places = [] then none
  else match rest with
    | [] => some (number 0)
    | 'e' :: power =>
      let ds := Plain.unsigned power
      let size : Int := digitsValue ds
      if ds ≠ [] ∧ ds.all Char.isDigit then
        some (number (if power.head? = some '-' then -size else size))
      else none
    | _ => none

/-- A floating-point number as it is given to `floatText?`; the refusal names the text. -/
def floatText (s : List Char) : Except Refusal Binary64 :=
  match floatText? s with
  | some x => .ok x
  | none => .error (.noFloat (String.ofList s))

/-- Adds up groups, the least first, each counting sixty times as much as the one before it; every
step is rounded. -/
def sumGroups (sum : Binary64) (weight : Nat) : List Binary64 → Except Refusal Binary64
  | [] => .ok sum
  | group :: rest =>
    match Binary64.ofNat weight with
    | .infinite _ => .error .groupTooLarge
    | factor => sumGroups (sum.add (group.mul factor)) (weight * 60) rest

/-- The value that a floating-point number is, read at a node. -/
def ofFloat (origin : Nat) : Binary64 → Value
  | .nan => .undefined (some origin)
  | x => .float x

/-- A floating-point number in one of its forms, underscores passed over. -/
def floating (origin : Nat) (s : List Char) : Except Refusal Value := do
  let s := Text.lower (s.filter (· ≠ '_'))
  let negative := s.head? = some '-'
  let body := Plain.unsigned s
  if s = [] then throw .noDigits
  else if body = ".inf".toList then return .float (.infinite negative)
  else if body = ".nan".toList then return .undefined none
  else
    let x ←
      if ':' ∈ body then do
        sumGroups .zero 1 (← (Text.splitOn [':'] body).mapM floatText).reverse
      else floatText body
    return ofFloat origin (if negative then x.neg else x)

/-! ## Other scalars -/

/-- A date, or a date and a time; a line feed at the end does not count. -/
def timestamp (s : List Char) : Except Refusal Value :=
  let s := Plain.withoutBreak s
  match Day.ofText? 1 s, Moment.ofText? s with
  | some d, _ => d.check.map fun _ => .date d
  | none, some m => m.check.map fun _ => .moment m
  | none, none => .error .noTimestamp

/-- A truth value by its word in any letter case. -/
def truth (s : List Char) : Except Refusal Value :=
  let word := Text.lower s
  if (Plain.trueWords.map (·.toList)).contains word then .ok (.bool true)
  else if (Plain.falseWords.map (·.toList)).contains word then .ok (.bool false)
  else .error (.noTruth (String.ofList word))

/-- The six bits of a character of the alphabet of sixty-four. -/
def sextet? (c : Char) : Option Nat :=
  if 'A' ≤ c ∧ c ≤ 'Z' then some (c.toNat - 65)
  else if 'a' ≤ c ∧ c ≤ 'z' then some (c.toNat - 71)
  else if '0' ≤ c ∧ c ≤ '9' then some (c.toNat + 4)
  else if c = '+' then some 62
  else if c = '/' then some 63
  else none

/-- The sextets of a text in the alphabet of sixty-four; other characters are passed over. `place`
is the place in a group of four, and `fills` counts the equals signs since the last sextet that
count. They count from the third place on; those that fill up a group end the data, and nothing else
ends them inside a group. -/
def sextets? (place fills : Nat) : List Char → Option (List Nat)
  | [] => if place = 0 then some [] else none
  | c :: rest =>
    if c = '=' ∧ 2 ≤ place then
      if 4 ≤ place + fills + 1 then some [] else sextets? place (fills + 1) rest
    else match sextet? c with
      | some d => (sextets? ((place + 1) % 4) 0 rest).map (d :: ·)
      | none => sextets? place fills rest

/-- The bytes of groups of sextets; the last group may lack one or two. -/
def sextetBytes : List Nat → List UInt8
  | a :: b :: c :: d :: rest =>
    (a * 4 + b / 16).toUInt8 :: (b % 16 * 16 + c / 4).toUInt8 :: (c % 4 * 64 + d).toUInt8
      :: sextetBytes rest
  | [a, b, c] => [(a * 4 + b / 16).toUInt8, (b % 16 * 16 + c / 4).toUInt8]
  | [a, b] => [(a * 4 + b / 16).toUInt8]
  | _ => []

/-- Bytes written in the alphabet of sixty-four. -/
def binary (s : List Char) : Except Refusal Value :=
  if s.all (·.toNat < 0x80) then
    (orMalformed (sextets? 0 0 s)).map fun data => .bytes (sextetBytes data)
  else .error .malformed

/-- The value of a scalar with a tag, at a node, by its characters. -/
def ofChars (origin : Nat) (tag : Tag) (s : List Char) : Except Refusal Value :=
  match tag with
  | .bool => truth s
  | .int => integer s
  | .float => floating origin s
  | .binary => binary s
  | .timestamp => timestamp s
  | _ => .error .malformed

/-- The value of a scalar with a tag, at a node. -/
def ofScalar (origin : Nat) (tag : Tag) (t : LooseText) : Except Refusal Value :=
  match tag with
  | .null => .ok .null
  | .text => .ok (.text t)
  | _ => (ofChars origin tag t.chars).mapError (·.takeBack t)

end Value

end CatalogSync.Yaml
