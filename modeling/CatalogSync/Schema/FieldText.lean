import CatalogSync.Catalog.TypeRule
import CatalogSync.Schema.RelationText

/-!
Reading a field line: a name, a type, and attributes. The mark for unique values is looked for
first and taken out, wherever it stands. The rest is cut into words; words are joined again to one
attribute as long as brackets of some kind are open. A line whose brackets never balance gives no
field.
-/

namespace CatalogSync

/-- How many brackets of each kind are open, less those that were closed unopened. -/
structure Balance where
  round : Int := 0
  square : Int := 0
  curly : Int := 0
deriving DecidableEq, Repr

namespace Balance

def addChar (b : Balance) (c : Char) : Balance :=
  match c with
  | '(' => { b with round := b.round + 1 }
  | ')' => { b with round := b.round - 1 }
  | '[' => { b with square := b.square + 1 }
  | ']' => { b with square := b.square - 1 }
  | '{' => { b with curly := b.curly + 1 }
  | '}' => { b with curly := b.curly - 1 }
  | _ => b

def add (b : Balance) (s : List Char) : Balance := s.foldl addChar b

/-- As many brackets were closed as were opened, of each kind. -/
def isEven (b : Balance) : Bool := b.round = 0 && b.square = 0 && b.curly = 0

theorem add_append (b : Balance) (s t : List Char) : b.add (s ++ t) = (b.add s).add t := by
  simp [add]

end Balance

/-- One attribute of a field line. -/
inductive Attribute where
  /-- A word without opening brackets. -/
  | bare (word : List Char)
  /-- Words from an opening bracket up to where all brackets are closed, a space apart. -/
  | bracketed (text : List Char)
deriving DecidableEq, Repr

/-- The attributes of a line, and whether brackets are left open behind the last one. -/
structure Attributes where
  closed : List Attribute
  isOpen : Bool
deriving DecidableEq, Repr

namespace Attributes

/-- Adds an attribute in front. -/
def push (a : Attribute) (as : Attributes) : Attributes := { as with closed := a :: as.closed }

/-- Joins words to attributes. `pending` holds the words of the attribute that is open, the last
one first, and `balance` its brackets. -/
def collect (pending : List (List Char)) (balance : Balance) : List (List Char) → Attributes
  | [] => ⟨[], !pending.isEmpty⟩
  | word :: rest =>
    if pending.isEmpty ∧ !word.any isOpener then (collect [] balance rest).push (.bare word)
    else
      let balance := balance.add word
      if balance.isEven then
        (collect [] balance rest).push
          (.bracketed (Text.joined [' '] (word :: pending).reverse))
      else collect (word :: pending) balance rest

/-- The attributes that words make up. -/
def ofWords (words : List (List Char)) : Attributes := collect [] {} words

end Attributes

namespace UniqueFlag

/-- What follows the argument of the mark for unique values, and the name it gives; nothing where
no argument in the right form follows. -/
def argument? (s : List Char) : Option (String × List Char) := do
  let rest ← Text.after? ['('] s
  let rest ← Text.after? "map:".toList (rest.dropWhile Text.isBlank)
  let rest ← Text.after? ['"'] (rest.dropWhile Text.isBlank)
  let (name, rest) ← Text.cutAt? '"' rest
  let rest ← Text.after? [')'] (rest.dropWhile Text.isBlank)
  return (String.ofList name, rest)

/-- The first mark for unique values that no further sign precedes: the line without it, and the
name it gives. `afterSign` says that the character before is the sign. -/
def extractFrom (afterSign : Bool) : List Char → List Char × Option UniqueFlag
  | [] => ([], none)
  | c :: rest =>
    match if afterSign then none else Text.after? "@unique".toList (c :: rest) with
    | some after =>
      match argument? after with
      | some (name, after) => (after, some ⟨some name⟩)
      | none => (after, some ⟨none⟩)
    | none =>
      let (rest, flag) := extractFrom (c = '@') rest
      (c :: rest, flag)

/-- Takes the mark for unique values out of a line. -/
def extract (line : List Char) : List Char × Option UniqueFlag := extractFrom false line

end UniqueFlag

namespace Field

/-- A field with a name and a type; the markers in the type tell the rest. -/
def ofNameAndType (name type : List Char) (unique : Option UniqueFlag) : Field := {
  name := String.ofList name
  type := String.ofList type
  isArray := Text.contains TypeRule.arrayMarker.toList type
  isRequired := !Text.contains TypeRule.optionalMarker.toList type
  unique := unique }

/-- The kinds of attributes in brackets that a field knows. -/
inductive BracketedKind where
  | native (type : List Char)
  | relation
  | default (expr : List Char)
  | other
deriving DecidableEq, Repr

/-- The kind of an attribute in brackets. -/
def kindOf (text : List Char) : BracketedKind :=
  match Text.after? "@db.".toList text with
  | some type => .native type
  | none =>
    if Text.startsWith "@relation".toList text then .relation
    else match Text.after? "@default(".toList text with
      | some rest => if rest.getLast? = some ')' then .default rest.dropLast else .other
      | none => .other

/-- The field with what one attribute says. -/
def withAttribute (f : Field) : Attribute → Except Fault Field
  | .bare word =>
    if word = "@id".toList then .ok { f with isId := true }
    else match Text.after? "@db.".toList word with
      | some type => .ok { f with nativeType := some (String.ofList type) }
      | none => .ok f
  | .bracketed text =>
    match kindOf text with
    | .native type => .ok { f with nativeType := some (String.ofList type) }
    | .relation => (Relation.parse text).map fun r => { f with relation := some r }
    | .default expr => .ok { f with defaultExpr := some (String.ofList expr) }
    | .other => .ok f

/-- The field with what all attributes say, read from the left. -/
def withAttributes (f : Field) : List Attribute → Except Fault Field
  | [] => .ok f
  | a :: rest =>
    match f.withAttribute a with
    | .ok f => withAttributes f rest
    | .error e => .error e

/-- Reads a field line. No field comes of a line of fewer than two words, and none of a line that
leaves brackets open. -/
def parse (line : List Char) : Except Fault (Option Field) :=
  let (rest, unique) := UniqueFlag.extract line
  match Text.words rest with
  | name :: type :: words =>
    let attributes := Attributes.ofWords words
    match (ofNameAndType name type unique).make.bind (·.withAttributes attributes.closed) with
    | .ok f => .ok (if attributes.isOpen then none else some f)
    | .error e => .error e
  | _ => .ok none

/-- The dotted name under which reading writes its notes. -/
def parseSource : String := "mysqltranslate.parser"

/-- What is noted about attributes of a field, up to the first one that cannot be read. -/
def attributeNotes (name : List Char) : List Attribute → List Note
  | [] => []
  | .bracketed text :: rest =>
    match kindOf text with
    | .other =>
      let shown := Text.quotedString (String.ofList text)
      ⟨.debug, parseSource, s!"Ignoring attribute {shown} on field '{String.ofList name}'."⟩
        :: attributeNotes name rest
    | .relation =>
      match Relation.parse text with
      | .ok _ => attributeNotes name rest
      | .error _ => []
    | _ => attributeNotes name rest
  | .bare _ :: rest => attributeNotes name rest

/-- What is noted while a field line is read. -/
def parseNotes (line : List Char) : List Note :=
  let (rest, unique) := UniqueFlag.extract line
  match Text.words rest with
  | name :: type :: words =>
    let attributes := Attributes.ofWords words
    attributeNotes name attributes.closed
      ++ match (ofNameAndType name type unique).withAttributes attributes.closed with
        | .ok _ =>
          if attributes.isOpen then
            let shown := Text.quotedString (String.ofList (Text.trim line))
            [⟨.warning, parseSource,
              s!"Dropping field '{String.ofList name}': unbalanced delimiters in {shown}."⟩]
          else []
        | .error _ => []
  | _ =>
    [⟨.debug, parseSource, s!"Skipping non-field line {Text.quotedString (String.ofList line)}."⟩]

end Field

end CatalogSync
