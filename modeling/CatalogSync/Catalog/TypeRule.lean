import CatalogSync.Catalog.Column
import CatalogSync.Text.Word

/-!
Field types and native types of catalog columns. Both follow ordered lists of rules over the type
text in lower case with single spaces: the first rule whose keyword the text starts with decides.
The rules are no grammar. A size or precision that is joined to the keyword is carried along as it
stands; only the rules for unsigned integers drop it.
-/

namespace CatalogSync.TypeRule

/-- Marks a field type whose value may be missing. -/
def optionalMarker : String := "?"

/-- Marks a field type that holds a list. -/
def arrayMarker : String := "[]"

/-- A type text in lower case, its words a single space apart. -/
def normalise (sqlType : List Char) : List Char :=
  Text.joined [' '] (Text.words (Text.lower (Text.trim sqlType)))

/-- Gives a field type to texts that start with one of the keywords, as whole words if so asked. -/
structure FieldRule where
  keywords : List String
  wholeWord : Bool
  fieldType : String

namespace FieldRule

/-- One keyword starts the text, and ends there as a word if that is asked. -/
def fits (wholeWord : Bool) (keyword : String) (s : List Char) : Bool :=
  match Text.after? keyword.toList s with
  | some rest => !wholeWord || Text.atWordEnd rest
  | none => false

def applies (r : FieldRule) (s : List Char) : Bool :=
  r.keywords.any fun keyword => fits r.wholeWord keyword s

end FieldRule

/-- The rules for field types, in order. -/
def fieldRules : List FieldRule :=
  [⟨["tinyint(1)"], false, "Boolean"⟩,
    ⟨["tinyint", "smallint", "mediumint", "bigint", "int", "integer", "year"], true, "Int"⟩,
    ⟨["float", "double", "real"], true, "Float"⟩,
    ⟨["decimal", "numeric", "dec", "fixed"], true, "Decimal"⟩,
    ⟨["datetime", "timestamp", "date", "time"], true, "DateTime"⟩,
    ⟨["bool", "boolean"], true, "Boolean"⟩,
    ⟨["json"], true, "Json"⟩]

/-- The field type of texts that no rule knows. -/
def defaultFieldType : String := "String"

/-- The field type of a catalog type, without a marker. -/
def baseFieldType (sqlType : String) : String :=
  let s := normalise sqlType.toList
  match fieldRules.find? (·.applies s) with
  | some rule => rule.fieldType
  | none => defaultFieldType

/-- The field type of a column. -/
def fieldType (sqlType : String) (nullable : Bool) : String :=
  baseFieldType sqlType ++ (if nullable then optionalMarker else "")

/-- Puts a native name in the place of a keyword, or of a keyword with its size and the word
unsigned. -/
structure NativeRule where
  keyword : String
  unsigned : Bool
  native : String

/-- What follows a size in parentheses at the start of a text; all of it where there is none. -/
def afterSize (s : List Char) : List Char :=
  match s with
  | '(' :: rest =>
    match rest.takeWhile Text.isDigit, rest.dropWhile Text.isDigit with
    | _ :: _, ')' :: after => after
    | _, _ => s
  | _ => s

/-- What follows the word unsigned, which white space parts from what stands before it. -/
def afterUnsigned? (s : List Char) : Option (List Char) :=
  match s with
  | c :: rest =>
    if Text.isBlank c then Text.after? "unsigned".toList (rest.dropWhile Text.isBlank) else none
  | [] => none

namespace NativeRule

/-- What the rule leaves of a text behind what it replaces. -/
def rest? (r : NativeRule) (s : List Char) : Option (List Char) :=
  match Text.after? r.keyword.toList s with
  | some rest => if r.unsigned then afterUnsigned? (afterSize rest) else some rest
  | none => none

/-- The text with the native name put in. -/
def replaced? (r : NativeRule) (s : List Char) : Option (List Char) :=
  (r.rest? s).map (r.native.toList ++ ·)

end NativeRule

/-- The rules for native types, in order. -/
def nativeRules : List NativeRule :=
  [⟨"tinyint", true, "UnsignedTinyInt"⟩, ⟨"tinyint", false, "TinyInt"⟩,
    ⟨"smallint", true, "UnsignedSmallInt"⟩, ⟨"smallint", false, "SmallInt"⟩,
    ⟨"mediumint", true, "UnsignedMediumInt"⟩, ⟨"mediumint", false, "MediumInt"⟩,
    ⟨"bigint", true, "UnsignedBigInt"⟩, ⟨"bigint", false, "BigInt"⟩,
    ⟨"int", true, "UnsignedInt"⟩, ⟨"integer", false, "Int"⟩, ⟨"int", false, "Int"⟩,
    ⟨"float", false, "Float"⟩, ⟨"double", false, "Double"⟩, ⟨"decimal", false, "Decimal"⟩,
    ⟨"datetime", false, "DateTime"⟩, ⟨"timestamp", false, "Timestamp"⟩,
    ⟨"date", false, "Date"⟩, ⟨"time", false, "Time"⟩, ⟨"year", false, "Year"⟩,
    ⟨"bit", false, "Bit"⟩, ⟨"varchar", false, "VarChar"⟩, ⟨"char", false, "Char"⟩,
    ⟨"tinytext", false, "TinyText"⟩, ⟨"mediumtext", false, "MediumText"⟩,
    ⟨"longtext", false, "LongText"⟩, ⟨"text", false, "Text"⟩,
    ⟨"varbinary", false, "VarBinary"⟩, ⟨"binary", false, "Binary"⟩,
    ⟨"tinyblob", false, "TinyBlob"⟩, ⟨"mediumblob", false, "MediumBlob"⟩,
    ⟨"longblob", false, "LongBlob"⟩, ⟨"blob", false, "Blob"⟩, ⟨"json", false, "Json"⟩]

/-- The native type of a catalog type, where it has one: up to the first space, since signs and
fillings that follow are no part of it. -/
def nativeType? (sqlType : String) : Option String :=
  (nativeRules.findSome? (·.replaced? (normalise sqlType.toList))).map fun s =>
    String.ofList (s.takeWhile (· ≠ ' '))

/-- What is noted about a catalog type without a native type. -/
def nativeNotes (sqlType : String) : List Note :=
  if (nativeType? sqlType).isSome then []
  else [⟨.debug, "mysqltranslate.type_mapper",
    s!"No native-type annotation for catalog type {Text.quotedString sqlType}."⟩]

/-- The character counts as the given lower-case letter where letter case is ignored. -/
def sameLetter (letter c : Char) : Bool :=
  c.toLower = letter || (letter = 's' && c = 'ſ') || (letter = 'i' && (c = 'ı' || c = 'İ'))

/-- What follows a word in a text that starts with it in any letter case. -/
def afterWord? : List Char → List Char → Option (List Char)
  | [], s => some s
  | _ :: _, [] => none
  | a :: word, b :: s => if sameLetter a b then afterWord? word s else none

/-- The literal asks for the current time, perhaps with a precision. -/
def isCurrentTimestamp (literal : List Char) : Bool :=
  match afterWord? "current_timestamp".toList (Text.trim literal) with
  | some [] => true
  | some ('(' :: rest) => rest.dropWhile Text.isDigit = [')']
  | _ => false

/-- The expression for a default literal in a field of the given type. Zero and one become truth
values in truth-valued fields alone. -/
def defaultExpr (literal fieldType : String) : String :=
  let isBoolean := Text.dropTrailing (· = '?') fieldType.toList = "Boolean".toList
  if isCurrentTimestamp literal.toList then "now()"
  else if isBoolean ∧ literal = "1" then "true"
  else if isBoolean ∧ literal = "0" then "false"
  else literal

end CatalogSync.TypeRule
