import CatalogSync.Number.Binary64
import CatalogSync.Text.Loose

/-!
JSON values. Members of an object keep the order in which their names first came; integers are
unbounded, and a number written with a fraction or an exponent is a floating-point number. Strings
and names may hold halves of surrogate pairs.
-/

namespace CatalogSync

inductive Json where
  | null
  | bool (value : Bool)
  | int (value : Int)
  | float (value : Binary64)
  | str (value : LooseText)
  | arr (items : List Json)
  | obj (members : List (LooseText × Json))
deriving BEq

namespace Json

/-- Sets the value under a name, in place where the name is known and at the end otherwise. -/
def put (members : List (LooseText × Json)) (name : LooseText) (value : Json) :
    List (LooseText × Json) :=
  match members with
  | [] => [(name, value)]
  | (n, v) :: rest => if n = name then (n, value) :: rest else (n, v) :: put rest name value

/-- An object of named values read in order; of one name the last value and the first place. -/
def ofMembers (members : List (LooseText × Json)) : Json :=
  .obj (members.foldl (fun known m => put known m.1 m.2) [])

/-- The value under a name. -/
def lookup? (members : List (LooseText × Json)) (name : LooseText) : Option Json :=
  (members.find? (·.1 = name)).map (·.2)

/-- The value under a name of an object. -/
def get? (j : Json) (name : LooseText) : Option Json :=
  match j with
  | .obj members => lookup? members name
  | _ => none

/-- The names of an object. -/
def names : Json → List LooseText
  | .obj members => members.map (·.1)
  | _ => []

/-- The word by which messages name the kind of a value. -/
def kindName : Json → String
  | .null => "NoneType"
  | .bool _ => "bool"
  | .int _ => "int"
  | .float _ => "float"
  | .str _ => "str"
  | .arr _ => "list"
  | .obj _ => "dict"

/-- Neither null, false, zero, nor empty. -/
def isTruthy : Json → Bool
  | .null => false
  | .bool b => b
  | .int i => i ≠ 0
  | .float (.finite _ m _) => m ≠ 0
  | .float _ => true
  | .str s => s ≠ .text ""
  | .arr items => !items.isEmpty
  | .obj members => !members.isEmpty

end Json

end CatalogSync
