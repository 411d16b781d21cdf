import CatalogSync.Proofs.Schema.BuiltRoundTrip
import CatalogSync.Proofs.Schema.FieldLine

/-!
The primary key of a table in its model. A key of one column is the mark of its field, which is unique as
well; a key of several columns is a directive, and none of their fields shows a mark or is unique by itself.
So the key is expressed once, whatever fields of constraints stand behind those of the columns.
-/

namespace CatalogSync

/-- Only the mark of a key reads like one, and it shows where the field is the one key. -/
theorem Field.id_mem_renderAttributes_iff {f : Field} {ids : Nat} :
    "@id".toList ∈ f.renderAttributes ids ↔ f.isId = true ∧ ids = 1 := by
  have hother : "@id".toList ∉ f.renderAttributes 0 := by
    intro hmem
    obtain ⟨c, rest, htext, hc⟩ := exists_of_mem_renderAttributes hmem
    obtain ⟨-, htail⟩ := List.cons.inj (htext : '@' :: 'i' :: 'd' :: [] = '@' :: c :: rest)
    exact hc (List.cons.inj htail).1.symm
  rw [renderAttributes_eq_append, List.mem_append, or_iff_left hother, idTexts]
  split
  next h => exact iff_of_true List.mem_cons_self h
  next h => exact iff_of_false List.not_mem_nil h

namespace Model

/-- None of the directives is one of a key. -/
def NoIdDirective (directives : List String) : Prop := ∀ names, idDirective names ∉ directives

/-- A directive of a unique constraint is none of a key. -/
theorem uniqueDirective_ne_idDirective (k : UniqueComposite) (names : List String) :
    uniqueDirective k ≠ idDirective names := by
  intro h
  have htext := congrArg String.toList h
  rw [toList_uniqueDirective, toList_idDirective, List.append_cancel_left_eq] at htext
  obtain ⟨-, htail⟩ := List.cons.inj (htext : '@' :: '@' :: 'u' :: _ = '@' :: '@' :: 'i' :: _)
  obtain ⟨-, htail⟩ := List.cons.inj htail
  exact absurd (List.cons.inj htail).1 (by decide)

theorem noIdDirective_map_uniqueDirective (ks : List UniqueComposite) :
    NoIdDirective (ks.map uniqueDirective) := by
  intro names hmem
  obtain ⟨k, -, hk⟩ := List.mem_map.1 hmem
  exact uniqueDirective_ne_idDirective k names hk

end Model

theorem Column.isPrimary_iff {c : Column} : c.isPrimary = true ↔ c.keyFlag = .primary := decide_eq_true_iff

namespace Table

open Column (isPrimary_iff)
open Model (NoIdDirective idDirective)

variable {t : Table}

theorem isId_columnField (t : Table) (c : Column) : (t.columnField c).isId = c.isPrimary := by
  unfold columnField
  split <;> rfl

/-- The field of a column is unique where the catalog says so, and for the one column of a key. -/
theorem unique_columnField (t : Table) (c : Column) : (t.columnField c).unique =
    if c.keyFlag = .unique ∨ c.keyFlag = .primary ∧ t.primaryKeyColumns.length ≤ 1 then some {}
    else none := by
  have hplain : (Field.ofColumn c).unique = if c.keyFlag.isUnique then some {} else none := rfl
  unfold columnField
  cases hflag : c.keyFlag <;>
    by_cases hseveral : 1 < t.primaryKeyColumns.length <;>
    simp [Column.isPrimary, KeyFlag.isUnique, hplain, hflag, hseveral]

/-- A model has as many key fields as its table has key columns. -/
theorem idFieldCount_ofTable (t : Table) :
    (Model.ofTable t).idFieldCount = t.primaryKeyColumns.length := by
  have hrelations : (t.relationFields (t.columns.map (·.field))).filter (·.isId) = [] := by
    refine List.filter_eq_nil_iff.2 fun f hf => ?_
    obtain ⟨taken, g, -, rfl⟩ := exists_of_mem_relationFields hf
    exact Bool.false_ne_true
  have hkeys : (fun f : Field => f.isId) ∘ t.columnField = Column.isPrimary :=
    funext fun c => t.isId_columnField c
  rw [Model.idFieldCount, fields_ofTable, List.filter_append, hrelations, List.append_nil,
    List.filter_map, List.length_map, hkeys, primaryKeyColumns, List.length_map]

/-- How a model expresses the primary key of its table, with one field for each column and further fields
behind them. The fields of the key columns, and no others, are marked as key. The model has one directive
that names the columns of a key of several columns, and none of their fields is unique; the field of the one
column of a key is unique and alone shows its mark; and there is neither directive nor mark without a key.
The other columns are unique where the catalog says so. -/
structure ExpressesKey (t : Table) (m : Model) (columns relations : List Field) : Prop where
  fields : m.fields = columns ++ relations
  marked : List.Forall₂ (fun c f => f.name = c.field ∧ (f.isId = true ↔ c.keyFlag = .primary) ∧
    (c.keyFlag ≠ .primary → (f.unique ≠ none ↔ c.keyFlag = .unique))) t.columns columns
  unmarked : ∀ f ∈ relations, f.isId = false
  several : 2 ≤ t.primaryKeyColumns.length →
    (∃ others, m.directives = idDirective t.primaryKeyColumns :: others ∧ NoIdDirective others) ∧
      ∀ f ∈ m.fields, (f.isId = true → f.unique = none) ∧
        "@id".toList ∉ f.renderAttributes m.idFieldCount
  single : ∀ name, t.primaryKeyColumns = [name] → NoIdDirective m.directives ∧
    ∃ before key after, columns = before ++ key :: after ∧ key.name = name ∧
      (∃ rest, key.renderAttributes m.idFieldCount = "@id".toList :: "@unique".toList :: rest) ∧
      ∀ f ∈ before ++ after ++ relations, "@id".toList ∉ f.renderAttributes m.idFieldCount
  keyless : t.primaryKeyColumns = [] → NoIdDirective m.directives ∧
    ∀ f ∈ m.fields, "@id".toList ∉ f.renderAttributes m.idFieldCount

theorem forall₂_columnField (t : Table) : List.Forall₂ (fun c f => f.name = c.field ∧
    (f.isId = true ↔ c.keyFlag = .primary) ∧
    (c.keyFlag ≠ .primary → (f.unique ≠ none ↔ c.keyFlag = .unique))) t.columns
    (t.columns.map t.columnField) := by
  rw [List.forall₂_map_right_iff, List.forall₂_same]
  refine fun c _ => ⟨t.name_columnField c, ?_, fun hplain => ?_⟩
  · rw [isId_columnField, isPrimary_iff]
  · rw [unique_columnField]
    simp [hplain]

theorem isId_of_mem_relationFields {taken : List String} {f : Field} (h : f ∈ t.relationFields taken) :
    f.isId = false := by
  obtain ⟨taken, g, -, rfl⟩ := exists_of_mem_relationFields h
  rfl

/-- No field shows a key but where the table has one key column. -/
theorem id_not_mem_renderAttributes_ofTable (h : t.primaryKeyColumns.length ≠ 1) (f : Field) :
    "@id".toList ∉ f.renderAttributes (Model.ofTable t).idFieldCount := by
  rw [Field.id_mem_renderAttributes_iff, idFieldCount_ofTable]
  exact fun hshown => h hshown.2

theorem unique_of_isId_of_several (hseveral : 2 ≤ t.primaryKeyColumns.length) {f : Field}
    (hf : f ∈ (Model.ofTable t).fields) (hid : f.isId = true) : f.unique = none := by
  rw [fields_ofTable, List.mem_append] at hf
  rcases hf with hf | hf
  · obtain ⟨c, -, rfl⟩ := List.mem_map.1 hf
    rw [isId_columnField, isPrimary_iff] at hid
    rw [unique_columnField, hid, if_neg]
    have hlength : ¬t.primaryKeyColumns.length ≤ 1 := by omega
    simp [hlength]
  · rw [isId_of_mem_relationFields hf] at hid
    cases hid

theorem exists_directives_ofTable (h : 2 ≤ t.primaryKeyColumns.length) :
    ∃ others, (Model.ofTable t).directives = idDirective t.primaryKeyColumns :: others ∧
      NoIdDirective others := by
  rw [Model.directives_ofTable, if_pos (by omega), List.singleton_append]
  exact ⟨_, rfl, Model.noIdDirective_map_uniqueDirective _⟩

theorem noIdDirective_ofTable (h : t.primaryKeyColumns.length ≤ 1) :
    NoIdDirective (Model.ofTable t).directives := by
  rw [Model.directives_ofTable, if_neg (by omega), List.nil_append]
  exact Model.noIdDirective_map_uniqueDirective _

/-- The column of a key of one column, among the columns of its table. -/
theorem exists_of_primaryKeyColumns_eq_singleton {name : String} (h : t.primaryKeyColumns = [name]) :
    ∃ before c after, t.columns = before ++ c :: after ∧ c.field = name ∧ c.keyFlag = .primary ∧
      ∀ c' ∈ before ++ after, c'.keyFlag ≠ .primary := by
  obtain ⟨c, hkeys, hname⟩ := List.map_eq_singleton_iff.1 h
  obtain ⟨before, after, hcolumns, hbefore, hc, hafter⟩ := List.filter_eq_cons_iff.1 hkeys
  refine ⟨before, c, after, hcolumns, hname, isPrimary_iff.1 hc, fun c' hc' hflag => ?_⟩
  rcases List.mem_append.1 hc' with hmem | hmem
  · exact hbefore c' hmem (isPrimary_iff.2 hflag)
  · exact List.filter_eq_nil_iff.1 hafter c' hmem (isPrimary_iff.2 hflag)

/-- The one key column of a table gives the one field that shows a key. -/
theorem exists_key_of_primaryKeyColumns_eq_singleton {name : String} (h : t.primaryKeyColumns = [name]) :
    ∃ before key after, t.columns.map t.columnField = before ++ key :: after ∧ key.name = name ∧
      (∃ rest, key.renderAttributes (Model.ofTable t).idFieldCount =
        "@id".toList :: "@unique".toList :: rest) ∧
      ∀ f ∈ before ++ after ++ t.relationFields (t.columns.map (·.field)),
        "@id".toList ∉ f.renderAttributes (Model.ofTable t).idFieldCount := by
  have hone : t.primaryKeyColumns.length = 1 := by rw [h]; rfl
  obtain ⟨before, c, after, hcolumns, hname, hflag, hothers⟩ :=
    exists_of_primaryKeyColumns_eq_singleton h
  refine ⟨before.map t.columnField, t.columnField c, after.map t.columnField, ?_,
    (t.name_columnField c).trans hname, ?_, fun f hf => ?_⟩
  · rw [hcolumns, List.map_append, List.map_cons]
  · have hid : (t.columnField c).isId = true := by rw [isId_columnField, isPrimary_iff, hflag]
    have hunique : (t.columnField c).unique = some {} := by
      rw [unique_columnField, if_pos (.inr ⟨hflag, hone.le⟩)]
    rw [idFieldCount_ofTable, hone, Field.renderAttributes_eq, Field.idTexts, if_pos ⟨hid, rfl⟩, hunique]
    exact ⟨_, rfl⟩
  · rw [Field.id_mem_renderAttributes_iff]
    rintro ⟨hid, -⟩
    rw [← List.map_append] at hf
    rcases List.mem_append.1 hf with hf | hf
    · obtain ⟨c', hc', rfl⟩ := List.mem_map.1 hf
      rw [isId_columnField, isPrimary_iff] at hid
      exact hothers c' hc' hid
    · rw [isId_of_mem_relationFields hf] at hid
      cases hid

/-- The model of a checked table expresses the primary key once, whatever constraints the table has. -/
theorem makeModel_expressesKey (h : t.Sound) :
    ∃ m columns relations, Model.make t = .ok m ∧ t.ExpressesKey m columns relations := by
  refine ⟨Model.ofTable t, _, _, h.makeModel, t.fields_ofTable, t.forall₂_columnField,
    fun f hf => isId_of_mem_relationFields hf, fun hseveral => ?_, fun name hname => ?_, fun hnone => ?_⟩
  · exact ⟨exists_directives_ofTable hseveral, fun f hf =>
      ⟨unique_of_isId_of_several hseveral hf, id_not_mem_renderAttributes_ofTable (by omega) f⟩⟩
  · have hlength : t.primaryKeyColumns.length ≤ 1 := by rw [hname]; exact le_rfl
    exact ⟨noIdDirective_ofTable hlength, exists_key_of_primaryKeyColumns_eq_singleton hname⟩
  · have hlength : t.primaryKeyColumns.length = 0 := by rw [hnone]; rfl
    exact ⟨noIdDirective_ofTable (by omega), fun f _ => id_not_mem_renderAttributes_ofTable (by omega) f⟩

/-- A table with a key of two columns, one of them the column of a constraint, and a column that is unique by
itself. -/
def seatTable : Table where
  name := "seat"
  columns := [{ field := "hall", sqlType := "int", nullable := false, keyFlag := .primary },
    { field := "label", sqlType := "varchar(8)", keyFlag := .unique },
    { field := "number", sqlType := "int", nullable := false, keyFlag := .primary }]
  keys := [.foreign ⟨"fk_hall", "hall", "hall", "id"⟩, .unique ⟨"once", ["hall", "label"]⟩]

theorem makeModel_expressesKey_seat : seatTable.Sound ∧
    ∃ m columns relations, Model.make seatTable = .ok m ∧
      seatTable.ExpressesKey m columns relations := by
  have hsound : seatTable.Sound := ⟨by unfold Table.Valid; decide, by decide⟩
  exact ⟨hsound, makeModel_expressesKey hsound⟩

end Table

end CatalogSync
