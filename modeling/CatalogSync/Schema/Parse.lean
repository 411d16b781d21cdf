import CatalogSync.Schema.FieldText
import CatalogSync.Text.Lines

/-!
Reading the text of a schema. Lines go to one of three sections: a line that starts with the word
of a section opens it, and every line belongs to the section opened last. The lines of the model
section are cut into fragments, one for each line that starts with the word model and a space; a
fragment is a header up to its first brace and a body of directives and field lines.
-/

namespace CatalogSync

/-- The sections of a schema text. -/
inductive Section where
  | generator
  | datasource
  | models
deriving DecidableEq, Repr

namespace Section

def all : List Section := [.generator, .datasource, .models]

/-- The word that opens a section. -/
def word : Section → String
  | .generator => "generator"
  | .datasource => "datasource"
  | .models => "model"

/-- The section that a line opens. -/
def openedBy? (line : List Char) : Option Section :=
  all.find? fun s => Text.startsWith s.word.toList line

/-- Each line with its section, `current` being the one that is open. -/
def assign (current : Section) : List (List Char) → List (Section × List Char)
  | [] => []
  | line :: rest =>
    let s := (openedBy? line).getD current
    (s, line) :: assign s rest

/-- The lines of one section. -/
def linesOf (s : Section) (lines : List (List Char)) : List (List Char) :=
  ((assign .generator lines).filter (·.1 = s)).map (·.2)

end Section

/-- The name and the provider found in the lines of a header block. -/
structure Header where
  name : Option (List Char) := none
  provider : Option (List Char) := none
deriving DecidableEq, Repr

namespace Header

/-- The name that follows the word of a block, up to its brace. -/
def nameAfter? (word line : List Char) : Option (Option (List Char)) :=
  (Text.after? word line).map fun rest =>
    let name := Text.trim (((Text.cutAt? '{' rest).map (·.1)).getD rest)
    if name = [] then none else some name

/-- The quoted text behind the word provider and an equals sign, at the start of a text. -/
def providerHere? (s : List Char) : Option (List Char) := do
  let rest ← Text.after? "provider".toList s
  let rest ← Text.after? ['='] (rest.dropWhile Text.isBlank)
  let rest ← Text.after? ['"'] (rest.dropWhile Text.isBlank)
  let (value, _) ← Text.cutAt? '"' rest
  return value

/-- The first provider that a line names. -/
def provider? : List Char → Option (List Char)
  | [] => none
  | c :: rest => (providerHere? (c :: rest)).or (provider? rest)

/-- Adds what one line tells; of names and of providers the first counts. -/
def addLine (word : List Char) (h : Header) (line : List Char) : Header :=
  match if h.name = none then nameAfter? word line else none with
  | some name => { h with name := name }
  | none => { h with provider := h.provider.or (provider? line) }

/-- Reads the lines of a header block that a word opens. -/
def ofLines (word : String) (lines : List (List Char)) : Header :=
  lines.foldl (addLine word.toList) {}

end Header

namespace Generator

/-- Reads the generator block; what it does not say keeps its default. -/
def parse (lines : List (List Char)) : Generator :=
  let h := Header.ofLines Section.generator.word lines
  let standard : Generator := {}
  ⟨(h.name.map String.ofList).getD standard.name,
    (h.provider.map String.ofList).getD standard.provider⟩

end Generator

namespace Datasource

/-- Reads the datasource block; what it does not say keeps its default. -/
def parse (lines : List (List Char)) : Datasource :=
  let h := Header.ofLines Section.datasource.word lines
  let standard : Datasource := {}
  ⟨(h.name.map String.ofList).getD standard.name,
    (h.provider.map String.ofList).getD standard.provider⟩

end Datasource

/-- The text between the brackets of a key directive, where one starts here. -/
def idNamesHere? (s : List Char) : Option (List Char) := do
  let rest ← Text.after? "@@id([".toList s
  let (names, after) ← Text.cutAt? ']' rest
  let _ ← Text.after? [')'] after
  return names

/-- The text between the brackets of the first key directive of a line. -/
def idNames? : List Char → Option (List Char)
  | [] => none
  | c :: rest => (idNamesHere? (c :: rest)).or (idNames? rest)

namespace Model

/-- What a line of a model's body is. -/
inductive BodyLine where
  | skipped
  | directive (text : List Char)
  | field (line : List Char)
deriving DecidableEq, Repr

/-- Blank lines, comments and a lone brace are skipped; two signs begin a directive. -/
def bodyLine (line : List Char) : BodyLine :=
  let s := Text.trim line
  if s = [] ∨ Text.startsWith ['/', '/'] s ∨ s = ['}'] then .skipped
  else if Text.startsWith ['@', '@'] s then .directive (Text.trimRight line)
  else .field line

/-- Adds the lines of a body to a model. -/
def addBody (m : Model) : List (List Char) → Except Fault Model
  | [] => .ok m
  | line :: rest =>
    match bodyLine line with
    | .skipped => addBody m rest
    | .directive text => addBody { m with directives := m.directives ++ [String.ofList text] } rest
    | .field line =>
      match Field.parse line with
      | .ok (some f) => addBody { m with fields := m.fields ++ [f] } rest
      | .ok none => addBody m rest
      | .error e => .error e

/-- The names in the key directives of a model. -/
def directiveIds (m : Model) : List String :=
  m.directives.flatMap fun d => ((idNames? d.toList).map Relation.parseList).getD []

/-- The header of a fragment without white space, and the body; nothing where the fragment has no
brace or no name in front of it. -/
def split? (fragment : List Char) : Option (List Char × List Char) :=
  (Text.cutAt? '{' fragment).bind fun p =>
    if Text.trim p.1 = [] then none else some (Text.trim p.1, p.2)

/-- The model with the marks of its key directives and with widths for its fields. -/
def finish (m : Model) : Model := (m.markIds m.directiveIds).recomputeWidths

/-- Reads a fragment: what follows the word model and a space. -/
def parse (fragment : List Char) : Except Fault (Option Model) :=
  match split? fragment with
  | none => .ok none
  | some (name, body) =>
    match (empty (String.ofList name)).bind (addBody · (Text.lines body)) with
    | .ok m => .ok (some m.finish)
    | .error e => .error e

/-- What is noted about the lines of a body, up to the first one that cannot be read. -/
def bodyNotes : List (List Char) → List Note
  | [] => []
  | line :: rest =>
    match bodyLine line with
    | .field line =>
      Field.parseNotes line ++ match Field.parse line with
        | .ok _ => bodyNotes rest
        | .error _ => []
    | _ => bodyNotes rest

/-- What is noted while a fragment is read. -/
def parseNotes (fragment : List Char) : List Note :=
  match split? fragment with
  | none => []
  | some (_, body) =>
    bodyNotes (Text.lines body) ++ match parse fragment with
      | .ok (some m) =>
        [⟨.debug, Field.parseSource, s!"Parsed model '{m.name}' with {m.fields.length} field(s)."⟩]
      | _ => []

end Model

namespace Schema

/-- The lines before the first one that starts a model, then the lines of each model, the word at
its start taken off. -/
def fragmentLines : List (List Char) → List (List (List Char))
  | [] => [[]]
  | line :: rest =>
    match Text.after? "model ".toList line, fragmentLines rest with
    | some tail, [] => [[], [tail]]
    | some tail, first :: others => [] :: (tail :: first) :: others
    | none, [] => [[line]]
    | none, first :: others => (line :: first) :: others

/-- The fragments of the model section. -/
def fragments (lines : List (List Char)) : List (List Char) :=
  (fragmentLines lines).map (Text.joined ['\n'])

/-- The models of fragments, fragments that give none left out. -/
def parseModels : List (List Char) → Except Fault (List Model)
  | [] => .ok []
  | fragment :: rest =>
    match Model.parse fragment with
    | .error e => .error e
    | .ok m =>
      match parseModels rest with
      | .error e => .error e
      | .ok ms => .ok (m.toList ++ ms)

/-- Reads the text of a schema. -/
def parse (s : List Char) : Except Fault Schema :=
  let lines := Text.lines s
  match parseModels (fragments (Section.linesOf .models lines)) with
  | .error e => .error e
  | .ok models =>
    .ok {
      generator := Generator.parse (Section.linesOf .generator lines)
      datasource := Datasource.parse (Section.linesOf .datasource lines)
      models := models }

/-- What is noted about fragments, up to the first one that cannot be read. -/
def fragmentNotes : List (List Char) → List Note
  | [] => []
  | fragment :: rest =>
    Model.parseNotes fragment ++ match Model.parse fragment with
      | .ok _ => fragmentNotes rest
      | .error _ => []

/-- What is noted while the text of a schema is read. -/
def parseNotes (s : List Char) : List Note :=
  fragmentNotes (fragments (Section.linesOf .models (Text.lines s))) ++ match parse s with
    | .ok schema =>
      [⟨.info, Field.parseSource, s!"Parsed schema with {schema.models.length} model(s)."⟩]
    | .error _ => []

end Schema

end CatalogSync
