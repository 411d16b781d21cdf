import CatalogSync.Files.Path
import CatalogSync.Room
import CatalogSync.Text.Loose
import CatalogSync.Text.Utf8
import CatalogSync.Text.Lines
import CatalogSync.Text.Quoted

/-!
A tree of files without links, and the three operations on it: reading a whole file, writing a
whole file, and making a directory with its parents. An operation that fails says why and names
the path that failed; what it did to the tree before that stays.
-/

namespace CatalogSync

/-- A place in the tree: the names that lead to it from the root. -/
abbrev Location := List String

/-- What stands at a place. -/
inductive Entry where
  | file (bytes : List UInt8)
  | directory
deriving DecidableEq, Repr

/-- A tree: what stands at each place, the last word first, and the place that relative paths
start from. The root is always a directory. -/
structure FileTree where
  entries : List (Location × Entry)
  here : Location
deriving Repr

/-- Why the system refuses an operation. -/
inductive OsCode where
  | noEntry
  | exists
  | notDirectory
  | isDirectory
  | nameTooLong
deriving DecidableEq, Repr

namespace OsCode

def number : OsCode → Nat
  | .noEntry => 2
  | .exists => 17
  | .notDirectory => 20
  | .isDirectory => 21
  | .nameTooLong => 36

def text : OsCode → String
  | .noEntry => "No such file or directory"
  | .exists => "File exists"
  | .notDirectory => "Not a directory"
  | .isDirectory => "Is a directory"
  | .nameTooLong => "File name too long"

end OsCode

/-- A refused operation: by the system, with the path in question, because a name holds the null
character, because too many directories would have to be made, because the bytes of a file are no
text, or because a text has no bytes. -/
inductive FileFault where
  | os (code : OsCode) (path : Path)
  | nullCharacter
  | tooManyLevels
  | notUtf8 (fault : Text.Utf8Fault)
  | notEncodable (fault : Text.HalfFault)
deriving DecidableEq, Repr

namespace FileTree

/-- What stands at a place. -/
def entry? (t : FileTree) (l : Location) : Option Entry :=
  if l = [] then some .directory else (t.entries.find? (·.1 = l)).map (·.2)

/-- The tree with a place given something to hold. -/
def set (t : FileTree) (l : Location) (e : Entry) : FileTree :=
  { t with entries := (l, e) :: t.entries.filter (·.1 ≠ l) }

/-- The longest name that the system takes, in bytes. -/
def maxName : Nat := 255

/-- The longest path that the system takes, in bytes. -/
def maxPath : Nat := 4095

/-- One step from a directory; two dots lead back, and at the root nowhere. -/
def step (l : Location) (part : String) : Except OsCode Location :=
  if part = ".." then .ok l.dropLast
  else if maxName < part.utf8ByteSize then .error .nameTooLong
  else .ok (l ++ [part])

/-- Follows names from a directory. All but the last must lead to directories; what stands at the
end is not looked at. -/
def follow (t : FileTree) (l : Location) : List String → Except OsCode Location
  | [] => .ok l
  | [part] => step l part
  | part :: next :: rest => do
    let l ← step l part
    match t.entry? l with
    | some .directory => follow t l (next :: rest)
    | some (.file _) => .error .notDirectory
    | none => .error .noEntry

/-- The place of a path. -/
def locate (t : FileTree) (p : Path) : Except OsCode Location :=
  if maxPath < p.toString.utf8ByteSize then .error .nameTooLong
  else follow t (if p.root = .here then t.here else []) p.parts

/-- What stands at a path; the cause where the path cannot be followed or leads to nothing. -/
def status (t : FileTree) (p : Path) : Except OsCode Entry := do
  let l ← t.locate p
  match t.entry? l with
  | some e => .ok e
  | none => .error .noEntry

/-- The path leads to a directory. -/
def isDirectory (t : FileTree) (p : Path) : Bool :=
  match t.status p with
  | .ok .directory => !p.hasNul
  | _ => false

/-- Whether something stands at a path. A path that leads nowhere has an answer, one with a name
that is too long has none. -/
def probe (t : FileTree) (p : Path) : Except FileFault (Option Entry) :=
  if p.hasNul then .ok none
  else match t.status p with
    | .ok e => .ok (some e)
    | .error .nameTooLong => .error (.os .nameTooLong p)
    | .error _ => .ok none

/-- Makes one directory. -/
def makeOne (t : FileTree) (p : Path) : Except OsCode FileTree := do
  let l ← t.locate p
  match t.entry? l with
  | some _ => .error .exists
  | none => .ok (t.set l .directory)

/-- Makes the directory of a path, and those that are missing above it; one that is there already
will do. There is room for a number of levels. -/
def makeLevels (t : FileTree) (p : Path) : Nat → FileTree × Except FileFault Unit
  | 0 => (t, .error .tooManyLevels)
  | room + 1 =>
    if p.hasNul then (t, .error .nullCharacter)
    else match t.makeOne p with
      | .ok t' => (t', .ok ())
      | .error .noEntry =>
        if p.parts = [] then (t, .error (.os .noEntry p))
        else match makeLevels t p.parent room with
          | (t', .error e) => (t', .error e)
          | (t', .ok ()) =>
            match t'.makeOne p with
            | .ok t'' => (t'', .ok ())
            | .error code =>
              if code ≠ .noEntry ∧ t'.isDirectory p then (t', .ok ())
              else (t', .error (.os code p))
      | .error code => if t.isDirectory p then (t, .ok ()) else (t, .error (.os code p))

/-- Makes the directory of a path with its parents. -/
def makeDirectory [Room] (t : FileTree) (p : Path) : FileTree × Except FileFault Unit :=
  t.makeLevels p Room.directories

/-- Puts bytes at a path whose directory is there. -/
def put (t : FileTree) (p : Path) (bytes : List UInt8) : FileTree × Except FileFault Unit :=
  if p.hasNul then (t, .error .nullCharacter)
  else match t.locate p with
    | .error code => (t, .error (.os code p))
    | .ok l =>
      match t.entry? l with
      | some .directory => (t, .error (.os .isDirectory p))
      | _ => (t.set l (.file bytes), .ok ())

/-- The path has a directory of its own to be made before it is written. -/
def needsDirectory (p : Path) : Bool := p.parent.toString ≠ "."

/-- Overwrites a file with a text, after making the directories above it; gives the number of
bytes. A text that has none, because of the halves of pairs that it was written from, leaves the
file as it is. -/
def write [Room] (t : FileTree) (p : Path) (content : List Char) (halves : Option Text.HalfFault := none) :
    FileTree × Except FileFault Nat :=
  let made := if needsDirectory p then t.makeDirectory p.parent else (t, .ok ())
  match made with
  | (t, .error e) => (t, .error e)
  | (t, .ok ()) =>
    match halves with
    | some fault => (t, .error (.notEncodable fault))
    | none =>
      let bytes := Text.encode content
      match t.put p bytes with
      | (t, .error e) => (t, .error e)
      | (t, .ok ()) => (t, .ok bytes.length)

/-- The bytes of a file. -/
def bytes (t : FileTree) (p : Path) : Except FileFault (List UInt8) :=
  if p.hasNul then .error .nullCharacter
  else match t.status p with
    | .ok (.file bytes) => .ok bytes
    | .ok .directory => .error (.os .isDirectory p)
    | .error code => .error (.os code p)

/-- The text of a file, its lines ended by line feeds alone. -/
def read (t : FileTree) (p : Path) : Except FileFault (List Char) := do
  let bytes ← t.bytes p
  match Text.decode bytes with
  | .ok s => .ok (Text.unifyBreaks s)
  | .error e => .error (.notUtf8 e)

end FileTree

namespace FileFault

def message : FileFault → String
  | .os code path =>
    s!"[Errno {code.number}] {code.text}: {Text.quotedString path.toString}"
  | .nullCharacter => "embedded null byte"
  | .tooManyLevels => "maximum recursion depth exceeded while calling a Python object"
  | .notUtf8 fault => fault.message
  | .notEncodable fault => fault.message

end FileFault

end CatalogSync
