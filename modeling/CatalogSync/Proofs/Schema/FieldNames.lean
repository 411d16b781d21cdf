import CatalogSync.Proofs.Schema.BuiltFields

/-!
The names of the fields of the model of a table. The field of a constraint is named for the table that it
leads to; where that name is taken, the columns of the constraint are added to it, and whether the longer
name is taken as well is not asked. So the names are distinct unless some constraint finds both taken.
-/

namespace CatalogSync

namespace Table

variable {t : Table}

theorem relationFieldName_mem_iff {referenced : String} {columns taken : List String} :
    relationFieldName referenced columns taken ∈ taken ↔
      referenced ∈ taken ∧ referenced ++ "_" ++ "_".intercalate columns ∈ taken := by
  unfold relationFieldName
  by_cases h : referenced ∈ taken
  · simp [h]
  · simp [h]

/-- The names that are taken after the fields of constraints were named. -/
def takenBy (t : Table) (taken : List String) (groups : List (String × List ForeignKey)) :
    List String :=
  taken ++ (t.relationFieldsFrom taken groups).map (·.name)

@[simp]
theorem takenBy_nil (t : Table) (taken : List String) : t.takenBy taken [] = taken := List.append_nil _

theorem takenBy_cons (t : Table) (taken : List String) (g : String × List ForeignKey)
    (groups : List (String × List ForeignKey)) : t.takenBy taken (g :: groups) =
      t.takenBy (taken ++ [(t.relationField taken g.1 g.2).name]) groups := by
  unfold takenBy
  rw [relationFieldsFrom, List.map_cons, List.append_cons]

/-- Names stay distinct exactly if each field gets a name that is not taken by those before it. -/
theorem nodup_takenBy_iff {taken : List String} {groups : List (String × List ForeignKey)} :
    (t.takenBy taken groups).Nodup ↔ taken.Nodup ∧ ∀ before g after, groups = before ++ g :: after →
      (t.relationField (t.takenBy taken before) g.1 g.2).name ∉ t.takenBy taken before := by
  -- The name of the first field is taken for the fields that follow, so it moves over to the names before.
  induction groups generalizing taken with
  | nil => simp
  | cons g groups ih =>
    have hfirst : (taken ++ [(t.relationField taken g.1 g.2).name]).Nodup ↔
        taken.Nodup ∧ (t.relationField taken g.1 g.2).name ∉ taken := by
      rw [← List.concat_eq_append, List.nodup_concat, and_comm]
    rw [takenBy_cons, ih, hfirst, and_assoc]
    refine and_congr_right fun _ => ⟨?_, ?_⟩
    · rintro ⟨hname, hrest⟩ before g' after hsplit
      cases before with
      | nil =>
        obtain ⟨rfl, -⟩ := List.cons.inj hsplit
        rw [takenBy_nil]
        exact hname
      | cons b before =>
        obtain ⟨rfl, htail⟩ := List.cons.inj hsplit
        rw [takenBy_cons]
        exact hrest before g' after htail
    · intro h
      constructor
      · have hname := h [] g groups rfl
        rw [takenBy_nil] at hname
        exact hname
      · intro before g' after hsplit
        have hname := h (g :: before) g' after (congrArg (g :: ·) hsplit)
        rw [takenBy_cons] at hname
        exact hname

/-- The model of a table that was checked has fields of distinct names exactly if no constraint finds both
taken, by the columns and by the fields of the constraints before it: the name of the table that it leads
to, and that name with its columns added. -/
theorem nodup_fieldNames_iff (h : t.Sound) : ∃ m, Model.make t = .ok m ∧
    ((m.fields.map (·.name)).Nodup ↔ ∀ before constraint first rest after,
      t.groupedForeignKeys = before ++ (constraint, first :: rest) :: after →
      first.referencedTable ∈ t.takenBy (t.columns.map (·.field)) before →
      first.referencedTable ++ "_" ++ "_".intercalate ((first :: rest).map (·.column)) ∉
        t.takenBy (t.columns.map (·.field)) before) := by
  have hnames : (Model.ofTable t).fields.map (·.name) =
      t.takenBy (t.columns.map (·.field)) t.groupedForeignKeys := by
    rw [fields_ofTable, List.map_append, List.map_map]
    exact congrArg (· ++ _) (List.map_congr_left fun c _ => t.name_columnField c)
  refine ⟨Model.ofTable t, h.makeModel, ?_⟩
  rw [hnames, nodup_takenBy_iff, and_iff_right h.valid.2.2.1]
  constructor
  · intro hfresh before constraint first rest after hsplit htaken hlonger
    exact hfresh before _ after hsplit (relationFieldName_mem_iff.2 ⟨htaken, hlonger⟩)
  · rintro hfree before ⟨constraint, keys⟩ after hsplit hmem
    have hmember : (constraint, keys) ∈ t.groupedForeignKeys := by
      rw [hsplit]
      exact List.mem_append_cons_self
    cases keys with
    | nil => exact absurd rfl (keys_ne_nil_of_mem_groupedForeignKeys hmember)
    | cons first rest =>
      obtain ⟨htaken, hlonger⟩ := relationFieldName_mem_iff.1 hmem
      exact hfree before constraint first rest after hsplit htaken hlonger

/-- A table that refers twice to a table whose name one of its columns has. -/
def reviewTable : Table where
  name := "review"
  columns := [{ field := "user", sqlType := "int" }, { field := "editor", sqlType := "int" }]
  keys := [.foreign ⟨"fk_author", "user", "user", "id"⟩, .foreign ⟨"fk_editor", "editor", "user", "id"⟩]

theorem nodup_fieldNames_review : reviewTable.Sound ∧ ∃ m, Model.make reviewTable = .ok m ∧
    m.fields.map (·.name) = ["user", "editor", "user_user", "user_editor"] ∧
      ∀ before constraint first rest after,
        reviewTable.groupedForeignKeys = before ++ (constraint, first :: rest) :: after →
        first.referencedTable ∈ reviewTable.takenBy ["user", "editor"] before →
        first.referencedTable ++ "_" ++ "_".intercalate ((first :: rest).map (·.column)) ∉
          reviewTable.takenBy ["user", "editor"] before := by
  have hsound : reviewTable.Sound := ⟨by unfold Table.Valid; decide, by decide⟩
  obtain ⟨m, hmake, hiff⟩ := nodup_fieldNames_iff hsound
  have hnames : m.fields.map (·.name) = ["user", "editor", "user_user", "user_editor"] := by
    have hmodel : Model.make reviewTable = .ok (Model.ofTable reviewTable) := hsound.makeModel
    rw [hmake] at hmodel
    cases hmodel
    decide +kernel
  refine ⟨hsound, m, hmake, hnames, hiff.1 ?_⟩
  rw [hnames]
  decide

/-- A table that refers to a table whose name one of its columns has, and so has another the longer name. -/
def postTable : Table where
  name := "post"
  columns := [{ field := "user", sqlType := "int" }, { field := "user_id", sqlType := "int" },
    { field := "id", sqlType := "int" }]
  keys := [.foreign ⟨"fk", "id", "user", "id"⟩]

/-- Two fields of one model have the same name. -/
theorem nodup_fieldNames_post_ne : postTable.Sound ∧
    ∃ m, Model.make postTable = .ok m ∧ ¬(m.fields.map (·.name)).Nodup := by
  have hsound : postTable.Sound := ⟨by unfold Table.Valid; decide, by decide⟩
  refine ⟨hsound, Model.ofTable postTable, hsound.makeModel, ?_⟩
  decide +kernel

end Table

end CatalogSync
