import CatalogSync.Proofs.Catalog.Table
import CatalogSync.Proofs.Catalog.TypeRule
import CatalogSync.Schema.Build

/-!
The fields of the model of a table. Making the model of a table that was checked does not fail; its fields
are one for each column, and then one for each constraint that refers to another table, in the order in
which the constraints first stand among the keys.
-/

namespace CatalogSync

/-! ### Constraints -/

namespace Table

variable {t : Table} {constraint : String}

/-- The names of the constraints that refer to other tables, each where it first stands among the keys. -/
def constraints (t : Table) : List String := (t.foreignKeys.map (·.constraintName)).eraseDups

/-- The references of one constraint, in the order of the keys. -/
def keysOf (t : Table) (constraint : String) : List ForeignKey :=
  t.foreignKeys.filter (·.constraintName = constraint)

theorem groupedForeignKeys_eq (t : Table) :
    t.groupedForeignKeys = t.constraints.map fun c => (c, t.keysOf c) := by
  rw [groupedForeignKeys, grouped_eq, List.map_map]
  refine List.map_congr_left fun c _ => ?_
  rw [valuesUnder, List.filter_map, List.map_map]
  exact congrArg _ (List.map_id _)

theorem keysOf_ne_nil (h : constraint ∈ t.constraints) : t.keysOf constraint ≠ [] := by
  obtain ⟨k, hk, hname⟩ := List.mem_map.1 (List.mem_eraseDups.1 h)
  exact List.ne_nil_of_mem (List.mem_filter.2 ⟨hk, decide_eq_true hname⟩)

/-- Every group of references holds one. -/
theorem keys_ne_nil_of_mem_groupedForeignKeys {g : String × List ForeignKey}
    (h : g ∈ t.groupedForeignKeys) : g.2 ≠ [] := by
  rw [groupedForeignKeys_eq] at h
  obtain ⟨constraint, hmem, rfl⟩ := List.mem_map.1 h
  exact keysOf_ne_nil hmem

theorem Sound.keysOf (h : t.Sound) (hmem : constraint ∈ t.constraints) :
    constraint ≠ "" ∧ ∀ k ∈ t.keysOf constraint, k.Filled := by
  constructor
  · obtain ⟨k, hk, rfl⟩ := List.mem_map.1 (List.mem_eraseDups.1 hmem)
    exact (h.foreign k hk).constraintName
  · exact fun k hk => h.foreign k (List.mem_of_mem_filter hk)

end Table

/-! ### Making a model -/

theorem Field.make_ofColumn {c : Column} (h : c.field ≠ "") : (ofColumn c).make = .ok (ofColumn c) :=
  Field.make_eq_ok h (TypeRule.fieldType_ne c.sqlType c.nullable)

/-- A relation of a constraint with columns is what its parts say. -/
theorem Relation.ofKey_eq_ok {fields references : List String} {name : String} (hname : name ≠ "")
    (hfields : fields ≠ []) (hreferences : references ≠ []) :
    Relation.ofKey fields references (some name) none none = .ok {
      mapName := some name
      fields := some fields
      references := some references } := by
  have hmap : ¬some name = some "" := by simpa using hname
  simp only [ofKey, isMeaningful, if_neg hmap, if_neg hfields, if_neg hreferences]
  simp [hname]

namespace Table

variable {t : Table}

theorem relationFieldName_ne {referenced : String} (h : referenced ≠ "") (columns taken : List String) :
    relationFieldName referenced columns taken ≠ "" := by
  unfold relationFieldName
  split
  · simp [String.append_eq_empty_iff, h]
  · exact h

/-- The field of a constraint with references passes its checks. -/
theorem makeRelationField_eq_ok {constraint : String} {keys : List ForeignKey} (hname : constraint ≠ "")
    (hne : keys ≠ []) (hkeys : ∀ k ∈ keys, k.Filled) (taken : List String) :
    t.makeRelationField taken constraint keys = .ok (t.relationField taken constraint keys) := by
  obtain ⟨first, rest, rfl⟩ := List.exists_cons_of_ne_nil hne
  have hreferenced : first.referencedTable ≠ "" := (hkeys first List.mem_cons_self).referencedTable
  have hrelation := Relation.ofKey_eq_ok hname (List.cons_ne_nil first.column (rest.map (·.column)))
    (List.cons_ne_nil first.referencedColumn (rest.map (·.referencedColumn)))
  unfold makeRelationField
  simp only [List.map_cons, hrelation]
  refine Field.make_eq_ok (relationFieldName_ne hreferenced _ _) ?_
  simp [relationField, String.append_eq_empty_iff, hreferenced]

theorem makeRelationFieldsFrom_eq_ok {groups : List (String × List ForeignKey)}
    (h : ∀ g ∈ groups, g.1 ≠ "" ∧ g.2 ≠ [] ∧ ∀ k ∈ g.2, k.Filled) (taken : List String) :
    t.makeRelationFieldsFrom taken groups = .ok (t.relationFieldsFrom taken groups) := by
  induction groups generalizing taken with
  | nil => rfl
  | cons g groups ih =>
    obtain ⟨⟨hname, hne, hkeys⟩, hrest⟩ := List.forall_mem_cons.1 h
    rw [makeRelationFieldsFrom, makeRelationField_eq_ok hname hne hkeys]
    simp only [bind, Except.bind, ih hrest]
    rfl

theorem Sound.makeRelationFields (h : t.Sound) (taken : List String) :
    t.makeRelationFields taken = .ok (t.relationFields taken) := by
  refine makeRelationFieldsFrom_eq_ok ?_ taken
  rw [groupedForeignKeys_eq]
  intro g hg
  obtain ⟨constraint, hmem, rfl⟩ := List.mem_map.1 hg
  obtain ⟨hname, hkeys⟩ := h.keysOf hmem
  exact ⟨hname, keysOf_ne_nil hmem, hkeys⟩

/-- Making the model of a table that was checked does not fail. -/
theorem Sound.makeModel (h : t.Sound) : Model.make t = .ok (Model.ofTable t) := by
  have hcolumns : t.columns.mapM (fun c => (Field.ofColumn c).make) =
      .ok (t.columns.map Field.ofColumn) := by
    rw [mapM_eq_ok_iff, List.forall₂_map_right_iff, List.forall₂_same]
    exact fun c hc => Field.make_ofColumn (h.valid.2.2.2 c hc).1
  unfold Model.make
  rw [Model.empty_eq_ok h.valid.1, hcolumns]
  simp only [bind, Except.bind, h.makeRelationFields]
  rfl

/-! ### The fields of a model -/

/-- The field of a column in the model of a table: it stands without its mark for unique values where its
column is one of several of a key. -/
def columnField (t : Table) (c : Column) : Field :=
  if 1 < t.primaryKeyColumns.length ∧ c.isPrimary then { Field.ofColumn c with unique := none }
  else Field.ofColumn c

theorem name_columnField (t : Table) (c : Column) : (t.columnField c).name = c.field := by
  unfold columnField
  split <;> rfl

theorem isRequired_columnField (t : Table) (c : Column) :
    (t.columnField c).isRequired = !c.nullable := by
  unfold columnField
  split <;> rfl

/-- The field of each constraint stands in the place of the constraint, whatever names were taken by then. -/
theorem forall₂_relationFieldsFrom (t : Table) (groups : List (String × List ForeignKey))
    (taken : List String) : List.Forall₂ (fun g f => ∃ taken, f = t.relationField taken g.1 g.2) groups
      (t.relationFieldsFrom taken groups) := by
  induction groups generalizing taken with
  | nil => exact .nil
  | cons g groups ih => exact .cons ⟨taken, rfl⟩ (ih _)

theorem exists_of_mem_relationFields {taken : List String} {f : Field}
    (h : f ∈ t.relationFields taken) :
    ∃ taken, ∃ g ∈ t.groupedForeignKeys, f = t.relationField taken g.1 g.2 := by
  have hfields := (t.forall₂_relationFieldsFrom t.groupedForeignKeys taken).flip
  obtain ⟨i, hi, rfl⟩ := List.getElem_of_mem h
  have hlength := hfields.length_eq
  obtain ⟨taken', hfield⟩ := hfields.get hi (hlength ▸ hi)
  exact ⟨taken', _, List.get_mem _ _, hfield⟩

theorem fields_ofFields (t : Table) (fields : List Field) : (Model.ofFields t fields).fields =
    if 1 < t.primaryKeyColumns.length then
      fields.map fun f => if f.isId then { f with unique := none } else f
    else fields := rfl

/-- The fields of columns stand in front, and those of constraints after them. -/
theorem fields_ofTable (t : Table) : (Model.ofTable t).fields =
    t.columns.map t.columnField ++ t.relationFields (t.columns.map (·.field)) := by
  have hnames : (t.columns.map Field.ofColumn).map (·.name) = t.columns.map (·.field) := List.map_map
  rw [Model.ofTable, fields_ofFields, hnames]
  by_cases hseveral : 1 < t.primaryKeyColumns.length
  · rw [if_pos hseveral, List.map_append, List.map_map]
    refine congrArg₂ _ (List.map_congr_left fun c _ => ?_) ?_
    · have hid : (Field.ofColumn c).isId = c.isPrimary := rfl
      simp only [Function.comp_apply, columnField, hseveral, true_and, hid]
    · refine (List.map_congr_left fun f hf => ?_).trans (List.map_id _)
      obtain ⟨taken, g, -, rfl⟩ := exists_of_mem_relationFields hf
      rfl
  · rw [if_neg hseveral]
    refine congrArg (· ++ _) (List.map_congr_left fun c _ => ?_)
    simp only [columnField, hseveral, false_and, if_false]

/-! ### Constraints and their fields -/

theorem column?_eq_some_iff (h : (t.columns.map (·.field)).Nodup) {name : String} {c : Column} :
    t.column? name = some c ↔ c ∈ t.columns ∧ c.field = name := by
  constructor
  · intro hfound
    exact ⟨List.mem_of_find?_eq_some hfound, by simpa using List.find?_some hfound⟩
  · rintro ⟨hmem, rfl⟩
    cases hfound : t.column? c.field with
    | none =>
      have hne := List.find?_eq_none.1 hfound c hmem
      simp at hne
    | some c' =>
      have hmem' : c' ∈ t.columns := List.mem_of_find?_eq_some hfound
      have hname : c'.field = c.field := by simpa using List.find?_some hfound
      rw [List.inj_on_of_nodup_map h hmem' hmem hname]

/-- A local column may be null where it holds null or is none of the columns of the table. -/
theorem mayBeNull_iff (h : (t.columns.map (·.field)).Nodup) (column : String) :
    t.mayBeNull column ↔ (∃ c ∈ t.columns, c.field = column ∧ c.nullable) ∨
      ∀ c ∈ t.columns, c.field ≠ column := by
  unfold mayBeNull
  cases hfound : t.column? column with
  | none =>
    refine iff_of_true rfl (.inr fun c hc hname => ?_)
    rw [(column?_eq_some_iff h).2 ⟨hc, hname⟩] at hfound
    cases hfound
  | some c =>
    obtain ⟨hmem, hname⟩ := (column?_eq_some_iff h).1 hfound
    constructor
    · exact fun hnull => .inl ⟨c, hmem, hname, hnull⟩
    · rintro (⟨c', hmem', hname', hnull⟩ | hnone)
      · rw [(column?_eq_some_iff h).2 ⟨hmem', hname'⟩] at hfound
        exact Option.some.inj hfound ▸ hnull
      · exact absurd hname (hnone c hmem)

/-- A field joins the columns of a constraint to those that they refer to: its relation is mapped to the
constraint and pairs off its lists as the references of the constraint do in the order of the keys, its type
is the table of the first of them, and it is optional where a local column may be null. -/
structure Joins (t : Table) (constraint : String) (f : Field) : Prop where
  relation : ∃ r columns references, f.relation = some r ∧ r.mapName = some constraint ∧
    r.fields = some columns ∧ r.references = some references ∧ columns.length = references.length ∧
    columns.zip references = (t.keysOf constraint).map fun k => (k.column, k.referencedColumn)
  type : ∃ first, (t.keysOf constraint).head? = some first ∧
    f.type = first.referencedTable ++ (if f.isRequired then "" else "?")
  optional : f.isRequired = false ↔ ∃ k ∈ t.keysOf constraint,
    (∃ c ∈ t.columns, c.field = k.column ∧ c.nullable) ∨ ∀ c ∈ t.columns, c.field ≠ k.column

/-- The type of the field of a constraint has the marker where the field is optional. -/
theorem type_relationField (t : Table) (taken : List String) (constraint : String) (first : ForeignKey)
    (rest : List ForeignKey) : (t.relationField taken constraint (first :: rest)).type =
      first.referencedTable ++
        (if (t.relationField taken constraint (first :: rest)).isRequired then "" else "?") := by
  obtain ⟨nullable, hnullable⟩ :
      ∃ nullable, ((first :: rest).map (·.column)).any t.mayBeNull = nullable := ⟨_, rfl⟩
  simp only [relationField, hnullable]
  cases nullable <;> rfl

/-- The field that is built for a constraint joins its columns, whatever names were taken by then. -/
theorem joins_relationField (h : (t.columns.map (·.field)).Nodup) {constraint : String}
    (hmem : constraint ∈ t.constraints) (taken : List String) :
    t.Joins constraint (t.relationField taken constraint (t.keysOf constraint)) := by
  obtain ⟨first, rest, hkeys⟩ := List.exists_cons_of_ne_nil (keysOf_ne_nil hmem)
  refine ⟨⟨_, _, _, rfl, rfl, rfl, rfl, ?_, List.zip_map' ..⟩, ⟨first, ?_, ?_⟩, ?_⟩
  · rw [List.length_map, List.length_map]
  · rw [hkeys, List.head?_cons]
  · rw [hkeys]
    exact t.type_relationField taken constraint first rest
  · simp [relationField, mayBeNull_iff h]

/-- Making the model of a table that was checked gives a model whose fields are, in this order, one for each
column, named for it and required unless the column holds null, and one for each constraint that refers to
another table, which joins the columns of that constraint and of no other. -/
theorem makeModel_joins (h : t.Sound) : ∃ m columns relations, Model.make t = .ok m ∧
    m.fields = columns ++ relations ∧
    List.Forall₂ (fun c f => f.name = c.field ∧ f.isRequired = !c.nullable) t.columns columns ∧
    List.Forall₂ t.Joins (t.foreignKeys.map (·.constraintName)).eraseDups relations := by
  refine ⟨Model.ofTable t, _, _, h.makeModel, t.fields_ofTable, ?_, ?_⟩
  · rw [List.forall₂_map_right_iff, List.forall₂_same]
    exact fun c _ => ⟨t.name_columnField c, t.isRequired_columnField c⟩
  · have hfields := t.forall₂_relationFieldsFrom t.groupedForeignKeys (t.columns.map (·.field))
    rw [groupedForeignKeys_eq, List.forall₂_map_left_iff, ← t.groupedForeignKeys_eq] at hfields
    refine ((List.forall₂_and_left _ _).2 ⟨fun c hc => hc, hfields⟩).imp ?_
    rintro constraint f ⟨hmem, taken, rfl⟩
    exact joins_relationField h.valid.2.2.1 hmem taken

/-- A table with the references of two constraints in turns, one of them from a column that the table does
not have. -/
def shipmentTable : Table where
  name := "shipment"
  columns := [{ field := "order", sqlType := "int", nullable := false },
    { field := "line", sqlType := "int", nullable := false }]
  keys := [.foreign ⟨"fk_line", "order", "line", "order"⟩,
    .foreign ⟨"fk_depot", "depot", "depot", "id"⟩,
    .unique ⟨"once", ["order", "line"]⟩,
    .foreign ⟨"fk_line", "line", "line", "no"⟩]

theorem makeModel_joins_shipment : shipmentTable.Sound ∧
    ∃ m columns relations, Model.make shipmentTable = .ok m ∧ m.fields = columns ++ relations ∧
      List.Forall₂ (fun c f => f.name = c.field ∧ f.isRequired = !c.nullable) shipmentTable.columns
        columns ∧
      List.Forall₂ shipmentTable.Joins ["fk_line", "fk_depot"] relations := by
  have hsound : shipmentTable.Sound := ⟨by unfold Table.Valid; decide, by decide⟩
  have hconstraints : (shipmentTable.foreignKeys.map (·.constraintName)).eraseDups =
      ["fk_line", "fk_depot"] := by decide
  have hjoins := makeModel_joins hsound
  rw [hconstraints] at hjoins
  exact ⟨hsound, hjoins⟩

end Table

end CatalogSync
