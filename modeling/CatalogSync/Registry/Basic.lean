import CatalogSync.Json.Reader
import CatalogSync.Json.Writer
import CatalogSync.Registry.Entry
import CatalogSync.Workspace

/-!
The registry of databases and the file that keeps it, a JSON array of entries. No two entries have
one address, and none has a blank one: an entry that would break this is passed over. Operations
that change the registry write its file at once. What they did to the list stays where the writing
fails.
-/

namespace CatalogSync

structure Registry where
  path : Path
  entries : List DatabaseEntry := []
deriving Repr

/-- An operation on a registry and the workspace that holds its file. -/
abbrev Registry.Act := EStateM Fault (Registry × Workspace)

namespace Registry

variable [Room]

/-- The dotted name under which work on the registry writes its notes. -/
def source : String := "mysqltranslate.session"

def find? (r : Registry) (name : String) : Option DatabaseEntry := r.entries.find? (·.name = name)

/-- The entry of a name as it was given; no entry has a name with halves of pairs. -/
def named? (r : Registry) (name : LooseText) : Option DatabaseEntry := name.text?.bind r.find?

def findUrl? (r : Registry) (url : LooseText) : Option DatabaseEntry :=
  r.entries.find? (·.url = url)

/-- The entries in the order of their names, those of one name as they stand. -/
def sorted (r : Registry) : List DatabaseEntry := r.entries.mergeSort fun a b => a.name ≤ b.name

/-- The short form shown in reports. -/
def summary (r : Registry) : String :=
  s!"<SessionRegistry {r.path.toString} ({r.entries.length} databases)>"

def isBlankUrl (url : LooseText) : Bool := (Text.trim url.shown.toList).isEmpty

/-- The entry has an address that is neither blank nor known. -/
def accepts (r : Registry) (e : DatabaseEntry) : Bool :=
  !isBlankUrl e.url && (r.findUrl? e.url).isNone

/-- What is noted about an entry that is not accepted. -/
def acceptNotes (r : Registry) (e : DatabaseEntry) : List Note :=
  if isBlankUrl e.url then
    [⟨.warning, source, s!"Ignoring database '{e.name}' with an empty URL."⟩]
  else if (r.findUrl? e.url).isSome then
    [⟨.warning, source, s!"Ignoring database '{e.name}': URL already registered."⟩]
  else []

/-- Adds an entry at the end. -/
def push (r : Registry) (e : DatabaseEntry) : Registry := { r with entries := r.entries ++ [e] }

/-- Adds an entry at the end, if it is accepted. -/
def offer (r : Registry) (e : DatabaseEntry) : Registry := if r.accepts e then r.push e else r

/-- Takes out the first entry of a name. -/
def erase (r : Registry) (name : String) : Registry :=
  { r with entries := r.entries.eraseP (·.name = name) }

/-- Puts an entry in the place of the first one of a name. -/
def replace (r : Registry) (name : String) (e : DatabaseEntry) : Registry :=
  { r with entries := replaceFirst r.entries }
where
  replaceFirst : List DatabaseEntry → List DatabaseEntry
    | [] => []
    | d :: rest => if d.name = name then e :: rest else d :: replaceFirst rest

/-- The value that the file of the registry holds. -/
def toJson (r : Registry) : Json := .arr (r.entries.map (·.toJson))

/-- What keeps the file of the registry from being written. -/
def halfFault? (r : Registry) : Option Text.HalfFault := r.toJson.written.halfFault?

/-- Adds the entries that items describe, up to the first item that describes none. -/
def addItems (r : Registry) : List Json → Registry × Except Fault Unit
  | [] => (r, .ok ())
  | item :: rest =>
    match DatabaseEntry.decoder item with
    | .valid e => addItems (r.offer e) rest
    | .invalid faults => (r, .error (.entryRejected r.path faults))

/-- What is noted while the entries of items are added. -/
def addItemsNotes (r : Registry) : List Json → List Note
  | [] => []
  | item :: rest =>
    match DatabaseEntry.decoder item with
    | .valid e => r.acceptNotes e ++ addItemsNotes (r.offer e) rest
    | .invalid _ => []

/-- The items that the text of a registry file holds; an empty text holds none. -/
def itemsOf (path : Path) (text : List Char) : Except Fault (List Json) :=
  if text = [] then .ok []
  else match Json.read text with
    | .ok (.arr items) => .ok items
    | .ok j => .error (.notAnArray path j.kindName)
    | .error .malformed => .error (.notJson path)
    | .error (.longInteger digits) => .error (.longInteger digits)
    | .error (.tooDeep innermost) => .error (.tooDeep innermost.reading)

/-- Runs an operation on the workspace alone. -/
def Act.onWorkspace {α : Type} (act : CatalogSync.Act α) : Registry.Act α := fun (r, w) =>
  match act w with
  | .ok a w => .ok a (r, w)
  | .error e w => .error e (r, w)

/-- The registry as it is now. -/
def Act.current : Registry.Act Registry := fun (r, w) => .ok r (r, w)

/-- Puts another registry in the place of the current one. -/
def Act.put (r : Registry) : Registry.Act Unit := fun (_, w) => .ok () (r, w)

/-- Adds notes to the journal. -/
def Act.notes (ns : List Note) : Registry.Act Unit := Act.onWorkspace (CatalogSync.Act.notes ns)

/-- Whether something stands at the path of the registry. -/
def Act.fileExists : Registry.Act Bool := fun (r, w) =>
  match w.files.probe r.path with
  | .ok entry => .ok entry.isSome (r, w)
  | .error e => .error (.file e) (r, w)

/-- Reads the file of the registry in the place of what was there; without a file the registry is
empty. Where reading fails half way, the entries read so far remain. -/
def load : Registry.Act Unit := do
  let r : Registry := { (← Act.current) with entries := [] }
  Act.put r
  if ← Act.fileExists then
    let items ← Act.onWorkspace do
      CatalogSync.Act.ofExcept (itemsOf r.path (← CatalogSync.Act.readText r.path))
    let (loaded, result) := r.addItems items
    Act.notes (r.addItemsNotes items)
    Act.put loaded
    match result with
    | .ok () =>
      Act.notes [⟨.info, source,
        s!"Loaded {loaded.entries.length} database(s) from {r.path.toString}"⟩]
    | .error e => throw e
  else
    Act.notes [⟨.debug, source, s!"No session file at {r.path.toString}, starting empty."⟩]

/-- Writes the file of the registry; gives the number of bytes. -/
def save : Registry.Act Nat := do
  let r ← Act.current
  Act.onWorkspace (CatalogSync.Act.writeText r.path (Json.render r.toJson) r.halfFault?)

/-- Adds an entry, unless it is not accepted, and writes the file. -/
def add (e : DatabaseEntry) : Registry.Act Bool := do
  let r ← Act.current
  Act.notes (r.acceptNotes e)
  if r.accepts e then
    Act.put (r.push e)
    let _ ← save
    Act.notes [⟨.info, source, s!"Registered database '{e.name}'."⟩]
    return true
  else return false

/-- Takes out the first entry of a name, where there is one, and writes the file. -/
def remove (name : String) : Registry.Act Bool := do
  let r ← Act.current
  if (r.find? name).isSome then
    Act.put (r.erase name)
    let _ ← save
    Act.notes [⟨.info, source, s!"Removed database '{name}'."⟩]
    return true
  else return false

/-- Binds a file to a format of an entry; the file of the registry is not written. -/
def bind (name : String) (f : Format) (path : LooseText) : Registry.Act (Option DatabaseEntry) := do
  let r ← Act.current
  match r.find? name with
  | none => return none
  | some e =>
    let e ← Act.onWorkspace (CatalogSync.Act.ofExcept (e.bind f path))
    Act.put (r.replace name e)
    return some e

end Registry

end CatalogSync
