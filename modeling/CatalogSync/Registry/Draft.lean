import CatalogSync.Record.Assign
import CatalogSync.Registry.Basic

/-!
Registries under edit. The entries of a registry may be changed where they stand. A registry is edited as
it is until something is set aside in one of its entries or all fields of an entry are exchanged at once;
from then on its entries are not checked, until the file is read again. A checked entry is shown alike on
both ways, and its files are found and bound alike (`Unchecked.display_unchecked`,
`Unchecked.mapping?_unchecked`, `Unchecked.bound_unchecked`).
-/

namespace CatalogSync

def DiskMapping.unchecked (m : DiskMapping) : Unchecked := .ofObject .diskMapping [] m.toJson

namespace DatabaseEntry

def unchecked (e : DatabaseEntry) : Unchecked :=
  .ofObject .databaseEntry [("disk_mappings", .ofArray (.ofObject .diskMapping []))] e.toJson

def shape : Record.Shape where
  kind := .databaseEntry
  fields := [("name", Record.plainly Record.someText fun s => .str (.text s)),
    ("db_url", Record.plainly Record.looseText Json.str),
    ("disk_mappings", Record.nested (Record.list DiskMapping.decoder)
      (fun mappings => .arr (mappings.map (·.toJson))) (.ofArray (.ofObject .diskMapping [])))]

/-- The record with one field set by name; a name that the record does not have is a fault. -/
def assign : DatabaseEntry → String → Json → Except Fault DatabaseEntry :=
  Record.Assignable.assign ⟨shape, decoder, toJson⟩

end DatabaseEntry

namespace Unchecked

/-! ## Unchecked entries -/

/-- Puts an entry behind those of a sorted list that its name does not precede. -/
def inserted (name : Json) (entry : Unchecked) :
    List (Json × Unchecked) → Except Fault (List (Json × Unchecked))
  | [] => .ok [(name, entry)]
  | e :: rest => do
    if ← name.precedes e.1 then return (name, entry) :: e :: rest
    else return e :: (← inserted name entry rest)

/-- The entries in the order of their names, those of one name as they stand. -/
def sorted (entries : List Unchecked) : Except Fault (List Unchecked) := do
  let named ← entries.mapM fun e => return ((← e.member "name").toJson, e)
  let ordered ← named.foldlM (fun done e => inserted e.1 e.2 done) []
  return ordered.map (·.2)

/-- The first of some entries under whose name a text stands. -/
def placeBy (member : String) (value : LooseText) : List Unchecked → Except Fault (Option Nat)
  | [] => .ok none
  | e :: rest => do
    if (← e.member member).isText value then return some 0
    else return (← placeBy member value rest).map (· + 1)

/-- The mappings of an entry. -/
def mappings (e : Unchecked) : Except Fault (List Unchecked) := do
  (← e.member "disk_mappings").items

/-- What stands for the format of a mapping. Each text can be formatted, which is no format. -/
def format (m : Unchecked) : Except Fault (Option String) :=
  match m with
  | .plain (.str _) => .ok none
  | m => return some (← m.member "format").inline

/-- The place of the file of a format. -/
def mappingPlace (f : Format) : List Unchecked → Except Fault (Option Nat)
  | [] => .ok none
  | m :: rest => do
    if (← m.format) = some f.word then return some 0
    else return (← mappingPlace f rest).map (· + 1)

/-- The line that shows a mapping. -/
def mappingLine (m : Unchecked) : Except Fault LooseText := do
  match ← m.format with
  | none => throw (.lacking "builtin_function_or_method" "value")
  | some word =>
    let path ← m.member "path"
    return .text ("  " ++ String.ofList (Text.padRight 7 word.toList) ++ " → ")
      ++ path.toJson.inline

/-- The lines that show an entry: its name and address, then its files. -/
def display (e : Unchecked) : Except Fault LooseText := do
  e.callable "display"
  let name ← e.member "name"
  let url ← e.member "db_url"
  let header := name.toJson.inline ++ .text "  (" ++ url.toJson.inline ++ .text ")"
  let lines ← (← e.mappings).mapM mappingLine
  let files := if (← e.member "disk_mappings").isTruthy then lines else ["  (no output files)"]
  return .joined "\n" (header :: files)

/-- The plain value of an entry. -/
def entryWritten (e : Unchecked) : Except Fault Json := do
  e.callable "to_json"
  e.written

/-- Binds a file to a format, in the place of the one that is bound already. -/
def bound (e : Unchecked) (f : Format) (path : LooseText) : Except Fault Unchecked := do
  e.callable "update_disk_mapping"
  let mappings ← e.mappings
  let checkedPath : Except Fault Unchecked :=
    (Record.checked "path" Record.someText path).toExcept .diskMapping
      |>.map fun path => .plain (.str (.text path))
  match ← mappingPlace f mappings with
  | some i =>
    let path ← checkedPath
    let changed := ofItems (mappings.modify i (·.withMember "path" path))
    return e.withMember "disk_mappings" changed
  | none =>
    let push ← (← e.member "disk_mappings").append
    let mapping : DiskMapping := ⟨f, (← checkedPath).inline⟩
    return e.withMember "disk_mappings" (push mapping.unchecked)

/-- The file of a format. -/
def mapping? (e : Unchecked) (f : Format) : Except Fault (Option Json) := do
  e.callable "get_mapping"
  let mappings ← e.mappings
  return ((← mappingPlace f mappings).bind (mappings[·]?)).map (·.toJson)

end Unchecked

namespace Registry

variable [Room]

inductive Draft where
  | checked (registry : Registry)
  | unchecked (path : Path) (entries : List Unchecked)

/-- An edit of a registry, or a look at it, and the workspace that holds its file. -/
abbrev Edit := EStateM Fault (Draft × Workspace)

namespace Edit

/-- Runs an operation on the workspace alone. -/
def onWorkspace {α : Type} (act : CatalogSync.Act α) : Edit α := fun (d, w) =>
  match act w with
  | .ok a w => .ok a (d, w)
  | .error e w => .error e (d, w)

/-- Runs an operation on a checked registry. -/
def onRegistry {α : Type} (r : Registry) (act : Registry.Act α) : Edit α := fun (_, w) =>
  match act (r, w) with
  | .ok a (r, w) => .ok a (.checked r, w)
  | .error e (r, w) => .error e (.checked r, w)

def ofExcept {α : Type} (result : Except Fault α) : Edit α :=
  onWorkspace (CatalogSync.Act.ofExcept result)

def draft : Edit Draft := return (← get).1

def put (d : Draft) : Edit Unit := modify fun s => (d, s.2)

/-- The path of the registry and its entries, from now on unchecked. -/
def loosened : Edit (Path × List Unchecked) := do
  let (path, entries) := match ← draft with
    | .checked r => (r.path, r.entries.map (·.unchecked))
    | .unchecked path entries => (path, entries)
  put (.unchecked path entries)
  return (path, entries)

/-- Reads the file of the registry in the place of what was there. -/
def load : Edit Unit := do
  let r : Registry := match ← draft with
    | .checked r => r
    | .unchecked path _ => { path := path }
  onRegistry r Registry.load

/-- The plain values of all entries. -/
def entries : Edit (List Json) := do
  match ← draft with
  | .checked r => return r.entries.map (·.toJson)
  | .unchecked _ entries => ofExcept (entries.mapM (·.entryWritten))

/-- Writes the file of the registry; gives the number of bytes. -/
def save : Edit Nat := do
  match ← draft with
  | .checked r => onRegistry r Registry.save
  | .unchecked path _ =>
    let written ← entries
    onWorkspace (CatalogSync.Act.writeText path (Json.render (.arr written))
      (Json.written (.arr written)).halfFault?)

/-- Adds an entry, unless it is not accepted, and writes the file. -/
def add (e : DatabaseEntry) : Edit Bool := do
  match ← draft with
  | .checked r => onRegistry r (Registry.add e)
  | .unchecked path entries =>
    let known : Registry := { path := path }
    let notes := known.acceptNotes e
    if isBlankUrl e.url then
      onWorkspace (CatalogSync.Act.notes notes)
      return false
    else if (← ofExcept (Unchecked.placeBy "db_url" e.url entries)).isSome then
      onWorkspace (CatalogSync.Act.notes ((known.push e).acceptNotes e))
      return false
    else
      put (.unchecked path (entries ++ [e.unchecked]))
      let _ ← save
      return true

/-- The place of the first entry under whose name a text stands, and the entry. -/
def placeBy (member : String) (value : LooseText) : Edit (Option (Nat × Unchecked)) := do
  let (_, entries) ← loosened
  let place ← ofExcept (Unchecked.placeBy member value entries)
  return place.bind fun i => (entries[i]?).map fun e => (i, e)

/-- Takes out the first entry of a name, where there is one, and writes the file. Whether the
entries in front of it are the same must be told first, and none of them is. -/
def remove (name : String) : Edit Bool := do
  match ← draft with
  | .checked r => onRegistry r (Registry.remove name)
  | .unchecked path entries =>
    match ← placeBy "name" name with
    | none => return false
    | some (i, e) =>
      let _ ← ofExcept ((entries.take i).mapM (·.same e))
      put (.unchecked path (entries.eraseIdx i))
      let _ ← save
      return true

/-- The first entry of a name. -/
def find? (name : String) : Edit (Option Json) := do
  match ← draft with
  | .checked r => return (r.find? name).map (·.toJson)
  | .unchecked _ _ =>
    match ← placeBy "name" name with
    | none => return none
    | some (_, e) => return some (← ofExcept e.entryWritten)

/-- The first entry of an address. -/
def findUrl? (url : LooseText) : Edit (Option Json) := do
  match ← draft with
  | .checked r => return (r.findUrl? url).map (·.toJson)
  | .unchecked _ _ =>
    match ← placeBy "db_url" url with
    | none => return none
    | some (_, e) => return some (← ofExcept e.entryWritten)

/-- What stands as the names of the entries, in their order. -/
def names : Edit (List Json) := do
  match ← draft with
  | .checked r => return r.sorted.map fun e => .str e.name
  | .unchecked _ entries =>
    ofExcept do (← Unchecked.sorted entries).mapM fun e => return (← e.member "name").toJson

/-- The lines that show each entry, in the order of their names. -/
def displays : Edit (List LooseText) := do
  match ← draft with
  | .checked r => return r.sorted.map (·.display)
  | .unchecked _ entries => ofExcept do (← Unchecked.sorted entries).mapM (·.display)

/-- The number of entries and the short form shown in reports. -/
def summary : Edit (Nat × String) := do
  let r : Registry := match ← draft with
    | .checked r => r
    | .unchecked path entries =>
      { path := path, entries := entries.map fun _ => { name := "", url := .text "" } }
  return (r.entries.length, r.summary)

/-- Binds a file to a format of an entry; the file of the registry is not written. -/
def bind (name : String) (f : Except Fault Format) (path : LooseText) :
    Edit (Option Json) := do
  match ← draft with
  | .checked r =>
    if (r.find? name).isNone then return none
    let f ← ofExcept f
    return (← onRegistry r (Registry.bind name f path)).map (·.toJson)
  | .unchecked registryPath entries =>
    match ← placeBy "name" name with
    | none => return none
    | some (i, e) =>
      let e ← ofExcept (e.bound (← ofExcept f) path)
      put (.unchecked registryPath (entries.set i e))
      return some (← ofExcept e.entryWritten)

/-- The file of a format of an entry. -/
def mapping? (name : String) (f : Except Fault Format) : Edit (Option Json) := do
  match ← draft with
  | .checked r =>
    match r.find? name with
    | none => return none
    | some e => return (e.mapping? (← ofExcept f)).map (·.toJson)
  | .unchecked _ _ =>
    match ← placeBy "name" name with
    | none => return none
    | some (_, e) => ofExcept (e.mapping? (← ofExcept f))

/-- Sets what stands under a name in the first entry of a name; gives the entry. -/
def set (name member : String) (value : Json) : Edit (Option Json) := do
  match ← draft, Record.isAside member with
  | .checked r, false =>
    match r.find? name with
    | none => return none
    | some e =>
      let e ← ofExcept (e.assign member value)
      put (.checked (r.replace name e))
      return some e.toJson
  | _, _ =>
    match ← placeBy "name" name with
    | none => return none
    | some (i, e) =>
      let (path, entries) ← loosened
      let e ← ofExcept (DatabaseEntry.shape.assign e member value)
      put (.unchecked path (entries.set i e))
      return some (← ofExcept e.entryWritten)

end Edit

end Registry

end CatalogSync
