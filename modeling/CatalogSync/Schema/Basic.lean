import CatalogSync.Fault
import CatalogSync.Record.Decode

/-!
The schema language as data: two header blocks and a list of models, each with fields and
directives. A model carries the widths to which its names and types are filled up; they are set
anew from its fields by `Model.recomputeWidths`.
-/

namespace CatalogSync

structure Generator where
  name : String := "client"
  provider : String := "prisma-client-js"
deriving DecidableEq, Repr

structure Datasource where
  name : String := "db"
  provider : String := "mysql"
deriving DecidableEq, Repr

/-- The mark of a field without repeated values, perhaps with the name of its constraint. -/
structure UniqueFlag where
  mapName : Option String := none
deriving DecidableEq, Repr

/-- The parts of a relation attribute; a part that is absent differs from an empty one. -/
structure Relation where
  mapName : Option String := none
  fields : Option (List String) := none
  references : Option (List String) := none
  onUpdate : Option String := none
  onDelete : Option String := none
deriving DecidableEq, Repr

/-- One field. The type is as written, with its markers; the native type is without its leading
sign. -/
structure Field where
  name : String
  type : String
  isArray : Bool := false
  isRequired : Bool := true
  isId : Bool := false
  unique : Option UniqueFlag := none
  defaultExpr : Option String := none
  nativeType : Option String := none
  relation : Option Relation := none
deriving DecidableEq, Repr

/-- One model; a directive is a whole line. -/
structure Model where
  name : String
  fields : List Field := []
  directives : List String := []
  nameWidth : Nat := 0
  typeWidth : Nat := 0
deriving DecidableEq, Repr

structure Schema where
  generator : Generator := {}
  datasource : Datasource := {}
  models : List Model := []
deriving DecidableEq, Repr

namespace Generator

def decoder : Record.Decoder Generator :=
  Record.closed ["name", "provider"] fun members =>
    Generator.mk <$> Record.optional members "name" "client" Record.text
      <*> Record.optional members "provider" "prisma-client-js" Record.text

end Generator

namespace Datasource

def decoder : Record.Decoder Datasource :=
  Record.closed ["name", "provider"] fun members =>
    Datasource.mk <$> Record.optional members "name" "db" Record.text
      <*> Record.optional members "provider" "mysql" Record.text

end Datasource

namespace UniqueFlag

def decoder : Record.Decoder UniqueFlag :=
  Record.closed ["map_name"] fun members =>
    UniqueFlag.mk <$> Record.optional members "map_name" none (Record.nullable Record.text)

end UniqueFlag

namespace Relation

def decoder : Record.Decoder Relation :=
  Record.closed ["map_name", "fields", "references", "on_update", "on_delete"] fun members =>
    let text (name : String) : Validated (Option String) :=
      Record.optional members name none (Record.nullable Record.text)
    let names (name : String) : Validated (Option (List String)) :=
      Record.optional members name none (Record.nullable (Record.list Record.text))
    Relation.mk <$> text "map_name" <*> names "fields" <*> names "references"
      <*> text "on_update" <*> text "on_delete"

/-- The relation names columns or a constraint. -/
def isMeaningful (r : Relation) : Bool :=
  !(r.fields.getD []).isEmpty || !(r.references.getD []).isEmpty || r.mapName.getD "" ≠ ""

/-- A relation of a key that was found in a catalog; what is empty counts as absent. -/
def ofKey (fields references : List String) (mapName onDelete onUpdate : Option String) :
    Except Fault Relation :=
  let r : Relation := {
    mapName := if mapName = some "" then none else mapName
    fields := if fields = [] then none else some fields
    references := if references = [] then none else some references
    onUpdate := onUpdate
    onDelete := onDelete }
  if r.isMeaningful then .ok r else .error .emptyRelation

end Relation

namespace Field

def decoder : Record.Decoder Field :=
  Record.closed ["name", "type", "is_array", "is_required", "is_id", "unique", "default_expr",
      "db_type_annotation", "relation"] fun members =>
    Field.mk <$> Record.required members "name" Record.someText
      <*> Record.required members "type" Record.someText
      <*> Record.optional members "is_array" false Record.bool
      <*> Record.optional members "is_required" true Record.bool
      <*> Record.optional members "is_id" false Record.bool
      <*> Record.optional members "unique" none (Record.nullable UniqueFlag.decoder)
      <*> Record.optional members "default_expr" none (Record.nullable Record.text)
      <*> Record.optional members "db_type_annotation" none (Record.nullable Record.text)
      <*> Record.optional members "relation" none (Record.nullable Relation.decoder)

/-- A field whose name and type are checked to be not empty. -/
def make (f : Field) : Except Fault Field :=
  ((fun _ _ => f) <$> Record.checked "name" Record.someText f.name
    <*> Record.checked "type" Record.someText f.type).toExcept .field

theorem make_eq_ok {f : Field} (hname : f.name ≠ "") (htype : f.type ≠ "") : f.make = .ok f := by
  rw [make, Record.checked_someText_text hname, Record.checked_someText_text htype]
  rfl

def summary (f : Field) : String :=
  let mark := if f.isId then " @id" else ""
  s!"<Field {f.name} {f.type}{mark}>"

end Field

namespace Model

def decoder : Record.Decoder Model :=
  Record.closed ["name", "fields", "directives", "name_column_width", "type_column_width"]
    fun members =>
      Model.mk <$> Record.required members "name" Record.someText
        <*> Record.optional members "fields" [] (Record.list Field.decoder)
        <*> Record.optional members "directives" [] (Record.list Record.text)
        <*> Record.optional members "name_column_width" 0 Record.nat
        <*> Record.optional members "type_column_width" 0 Record.nat

/-- A model without fields whose name is checked to be not empty. -/
def empty (name : String) : Except Fault Model :=
  ((Record.checked "name" Record.someText name).map fun name => { name := name }).toExcept .model

theorem empty_eq_ok {name : String} (h : name ≠ "") : empty name = .ok { name := name } := by
  rw [empty, Record.checked_someText_text h]
  rfl

/-- One more than the longest of the lengths, nothing where there are none. -/
def widthOf (lengths : List Nat) : Nat := if lengths = [] then 0 else lengths.foldr max 0 + 1

/-- Sets both widths so that the longest name and the longest type leave one space. -/
def recomputeWidths (m : Model) : Model :=
  { m with
    nameWidth := widthOf (m.fields.map fun f => f.name.length)
    typeWidth := widthOf (m.fields.map fun f => f.type.length) }

/-- Adds a field at the end and widens the columns for it. -/
def addField (m : Model) (f : Field) : Model :=
  { m with fields := m.fields ++ [f] }.recomputeWidths

def field? (m : Model) (name : String) : Option Field := m.fields.find? (·.name = name)

def idFieldCount (m : Model) : Nat := (m.fields.filter (·.isId)).length

/-- Marks as part of the key the first field of each of the given names. -/
def markIds (m : Model) (names : List String) : Model :=
  { m with fields := names.foldl markOne m.fields }
where
  markOne (fields : List Field) (name : String) : List Field :=
    match fields with
    | [] => []
    | f :: rest => if f.name = name then { f with isId := true } :: rest else f :: markOne rest name

def summary (m : Model) : String :=
  s!"<Model {m.name} ({m.fields.length} fields, {m.directives.length} directives)>"

theorem length_le_widthOf {lengths : List Nat} {n : Nat} (h : n ∈ lengths) :
    n + 1 ≤ widthOf lengths := by
  have below : ∀ l : List Nat, n ∈ l → n ≤ l.foldr max 0 := by
    intro l
    induction l with
    | nil => simp
    | cons a l ih =>
      intro h
      simp only [List.foldr_cons]
      rcases List.mem_cons.1 h with rfl | h
      · omega
      · have := ih h
        omega
  have hne : lengths ≠ [] := List.ne_nil_of_mem h
  have := below lengths h
  simp [widthOf, hne]
  omega

theorem exists_widthOf_eq {lengths : List Nat} (h : lengths ≠ []) :
    ∃ n ∈ lengths, widthOf lengths = n + 1 := by
  have longest : ∀ l : List Nat, l ≠ [] → l.foldr max 0 ∈ l := by
    intro l
    induction l with
    | nil => exact fun hne => absurd rfl hne
    | cons a l ih =>
      intro _
      rw [List.foldr_cons]
      by_cases hl : l = []
      · simp [hl]
      · rcases Nat.le_total a (l.foldr max 0) with hle | hle
        · rw [Nat.max_eq_right hle]
          exact List.mem_cons_of_mem a (ih hl)
        · rw [Nat.max_eq_left hle]
          exact List.mem_cons_self
  exact ⟨_, longest lengths h, if_neg h⟩

end Model

namespace Schema

def decoder : Record.Decoder Schema :=
  Record.closed ["generator", "datasource", "models"] fun members =>
    Schema.mk <$> Record.optional members "generator" {} Generator.decoder
      <*> Record.optional members "datasource" {} Datasource.decoder
      <*> Record.optional members "models" [] (Record.list Model.decoder)

def modelNames (s : Schema) : List String := s.models.map (·.name)

def model? (s : Schema) (name : String) : Option Model := s.models.find? (·.name = name)

def addModel (s : Schema) (m : Model) : Schema := { s with models := s.models ++ [m] }

def summary (s : Schema) : String := s!"<PrismaSchema {s.models.length} models>"

end Schema

end CatalogSync
