import CatalogSync.Json.Reader
import CatalogSync.Settings.Basic
import CatalogSync.Workspace
import CatalogSync.Yaml.Assembly

/-!
Settings from a file of JSON or YAML. The extension of the path decides; under any other extension
the file is read as JSON and, where that fails, as YAML. The environment gives the storage directory
where the file does not.
-/

namespace CatalogSync.Settings

variable [Room]

/-- A member of a settings file: its name, or how faults name a key that is no text, and its
value. A value that is bytes which are no text is `undecodable`. -/
structure RawMember where
  name : LooseText ⊕ Segment
  value : Json
  undecodable : Bool := false

/-- The members of an object. -/
def rawOfJson (members : List (LooseText × Json)) : List RawMember :=
  members.map fun m => { name := .inl m.1, value := m.2 }

/-- A member as settings see it: bytes count as the text that they encode, and of other values it
only matters that they are no text. -/
def rawMember (name : LooseText ⊕ Segment) : Yaml.Value → RawMember
  | .text s => { name := name, value := .str s }
  | .bytes bytes =>
    match Text.decode bytes with
    | .ok s => { name := name, value := .str (.text (String.ofList s)) }
    | .error _ => { name := name, value := .null, undecodable := true }
  | _ => { name := name, value := .null }

/-- The least and the greatest number that faults give as a number. -/
def isShown (i : Int) : Bool := -(powerOfTwo 63 : Int) ≤ i && i < (powerOfTwo 63 : Int)

/-- How faults name an integer; one of more digits than are read is not written either. -/
def integerSegment (i : Int) : Segment :=
  if isShown i then .number i
  else if Numeral.maxLength < (toString i.natAbs).length then .name "<unprintable int object>"
  else .name (toString i)

/-- How faults name a key. -/
def segmentOf : Yaml.Value → Segment
  | .int i => integerSegment i
  | .bool b => .number (if b then 1 else 0)
  | .float x => .name x.toText
  | .undefined _ => .name Binary64.nan.toText
  | .bytes b => .name (Text.quotedBytes b)
  | .date d => .name d.toText
  | .moment m => .name m.toText
  | .text s => .name s.shown
  | _ => .name "None"

/-- The members that the entries of a mapping are. -/
def rawOfYaml (entries : List (Yaml.Value × Yaml.Value)) : List RawMember :=
  entries.map fun
    | (.text s, v) => rawMember (.inl s) v
    | (k, v) => rawMember (.inr (segmentOf k)) v

/-- The member has a name that cannot be encoded. -/
def RawMember.hasBrokenName (m : RawMember) : Bool :=
  match m.name with
  | .inl name => name.isBroken
  | .inr _ => false

/-- The members that have a name. -/
def named (raw : List RawMember) : List (LooseText × Json) :=
  raw.filterMap fun m =>
    match m.name with
    | .inl name => some (name, m.value)
    | .inr _ => none

/-- The fault of a member that is no setting. -/
def memberFault? (m : RawMember) : Option FieldFault :=
  match m.name with
  | .inl name => if names.contains name.shown then none else some (Record.unknownName name.shown)
  | .inr segment => some ⟨[segment], .invalidKey⟩

/-- A fault of a value that is no text, told from one of bytes that are no text. -/
def refineFault (raw : List RawMember) (f : FieldFault) : FieldFault :=
  let broken := raw.any fun m =>
    match m.name with
    | .inl name => m.undecodable && f.path = [.name name.shown]
    | .inr _ => false
  if broken ∧ f.kind = .stringType then { f with kind := .stringEncoding } else f

/-- The settings that members give, the storage directory of the environment standing in for one
that they do not give. -/
def ofRaw (storage : Option LooseText) (raw : List RawMember) : Except Fault Settings :=
  let given := named raw
  let members := match (ofEnvironmentDirectory? storage), Json.lookup? given "storage_dir" with
    | some dir, none => given ++ [(.text "storage_dir", .str dir)]
    | _, _ => given
  let checked := Record.closeAgainst (raw.any (·.hasBrokenName)) (raw.filterMap memberFault?)
    (ofMembers members)
  checked.toExceptBy fun faults => .settingsRejected (faults.map (refineFault raw))
where
  /-- The directory that the environment gives, unless it is empty. -/
  ofEnvironmentDirectory? (storage : Option LooseText) : Option LooseText :=
    storage.filter (· ≠ "")

/-- The members that a JSON text gives. -/
def rawOfJsonText (path : Path) (text : List Char) : Except Fault (List RawMember) :=
  match Json.read text with
  | .ok (.obj members) => .ok (rawOfJson members)
  | .ok j => .error (.notAnObject j.kindName)
  | .error .malformed => .error (.notJson path)
  | .error (.longInteger digits) => .error (.longInteger digits)
  | .error (.tooDeep innermost) => .error (.tooDeep innermost.reading)

/-- The fault of a YAML text that denotes no value. -/
def refusalFault (path : Path) : Yaml.Refusal → Fault
  | .malformed => .notYaml path
  | .tooDeep => .tooDeep ""
  | .noCodePoint => .badScalar "chr() arg not in range(0x110000)"
  | .escapeTooLarge => .escapeTooLarge
  | .longInteger digits => .longInteger digits
  | .noInteger base digits =>
    let shown := String.ofList ((Text.quotedLoose digits).take 200)
    .badScalar s!"invalid literal for int() with base {base}: {shown}"
  | .noFloat text =>
    let shown := String.ofList (Text.quotedLoose text)
    .badScalar s!"could not convert string to float: {shown}"
  | .noDate reason => .badScalar reason
  | .noDigits => .noDigits
  | .noTruth word => .noTruth word
  | .noTimestamp => .noTimestamp
  | .noTextForTime => .noTextForTime
  | .groupTooLarge => .groupTooLarge

/-- The members that a YAML text gives; an empty text gives none. -/
def rawOfYamlText (path : Path) (text : List Char) : Except Fault (List RawMember) :=
  match Yaml.TopLevel.ofText text with
  | .ok (.other .null) => .ok []
  | .ok (.mapping entries) => .ok (rawOfYaml entries)
  | .ok (.other v) => .error (.notAMapping v.kindName)
  | .error refusal => .error (refusalFault path refusal)

/-- How a settings file is read. -/
inductive Grammar where
  | json
  | yaml
  | either
deriving DecidableEq, Repr

/-- The way in which a file with an extension is read. -/
def grammarOf (extension : List Char) : Grammar :=
  if extension = ".yaml".toList ∨ extension = ".yml".toList then .yaml
  else if extension = ".json".toList then .json
  else .either

/-- The members that a file gives. Under an extension that says nothing, any fault of reading JSON
is passed over. -/
def rawOfFile (path : Path) (text : Except Fault (List Char)) :
    Grammar → Except Fault (List RawMember)
  | .json => text.bind (rawOfJsonText path)
  | .yaml => text.bind (rawOfYamlText path)
  | .either =>
    match text.bind (rawOfJsonText path) with
    | .ok raw => .ok raw
    | .error e => if e.isValueFault then text.bind (rawOfYamlText path) else .error e

/-- Whether a file stands at a path. -/
def fileExists (p : Path) : Act Bool := fun w =>
  match w.files.probe p with
  | .ok (some (.file _)) => .ok true w
  | .ok _ => .ok false w
  | .error e => .error (.file e) w

/-- Reads settings from the file at a path. -/
def loadFrom (path : Path) (storage : Option LooseText) : Act Settings := do
  if !(← fileExists path) then throw (.settingsMissing path.toString)
  let extension := Text.lower path.extension.toList
  if grammarOf extension = .either then
    Act.note .info source
      s!"Unknown extension '{String.ofList extension}' — trying JSON then YAML."
  let w ← get
  let text : Except Fault (List Char) := match w.files.read path with
    | .ok text => .ok text
    | .error e => .error (.file e)
  let settings ← Act.ofExcept do ofRaw storage (← rawOfFile path text (grammarOf extension))
  Act.note .info source s!"Loaded configuration from {path.toString}"
  return settings

/-- The half stands for a byte, in an argument whose bytes are no text. -/
def isByteHalf (half : Nat) : Bool := 0xDC80 ≤ half && half < 0xDD00

/-- The system is asked for a path with halves of pairs, and finds it too long. It is not asked where
a half stands for no byte or the null character occurs. -/
def isTooLong (files : FileTree) (path : LooseText) : Bool :=
  path.halves.all isByteHalf && !path.codes.contains 0 &&
    -- the null character takes one byte as well, and occurs in no other name
    match files.status (Path.ofString (path.shownBy (Char.ofNat 0))) with
    | .error .nameTooLong => true
    | _ => false

/-- A path as messages show it. -/
def pathText (path : LooseText) : LooseText :=
  path.takeBack (Path.ofString (String.ofList path.chars)).toString.toList

/-- Reads settings from a file. The names of files are texts, so that a path with halves of pairs
leads to none. -/
def load (path : LooseText) (storage : Option LooseText) : Act Settings :=
  match path with
  | .text s => loadFrom (Path.ofString s) storage
  | .broken _ _ => do
    if isTooLong (← get).files path then throw (.settingsTooLong (pathText path))
    else throw (.settingsMissing (pathText path))

end CatalogSync.Settings
