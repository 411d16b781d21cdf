import CatalogSync.Proofs.Catalog.Key

/-!
Keys that are collected from rows lose and duplicate nothing. Rows of different constraints may stand in any
order between each other and between rows of index statistics. Each unique constraint becomes one key with the
columns of all its rows, each row that refers to another table becomes one key, and no other key is made.
-/

namespace CatalogSync

/-! ### Groups keep all values -/

section
variable {α : Type}

/-- The values of groups, each under the name of its group. -/
def ungrouped (groups : List (String × List α)) : List (String × α) :=
  groups.flatMap fun g => g.2.map fun value => (g.1, value)

theorem ungrouped_addToGroup (name : String) (value : α) (groups : List (String × List α)) :
    (ungrouped (addToGroup name value groups)).Perm (ungrouped groups ++ [(name, value)]) := by
  induction groups with
  | nil => exact .refl _
  | cons group groups ih =>
    obtain ⟨n, values⟩ := group
    rw [addToGroup]
    by_cases h : n = name
    · subst h
      rw [if_pos rfl]
      simp only [ungrouped, List.flatMap_cons, List.map_append, List.append_assoc]
      exact List.perm_append_comm.append_left _
    · rw [if_neg h]
      simp only [ungrouped, List.flatMap_cons, List.append_assoc]
      exact ih.append_left _

/-- Grouping changes the order of values, and nothing else. -/
theorem ungrouped_grouped (pairs : List (String × α)) : (ungrouped (grouped pairs)).Perm pairs := by
  induction pairs using List.reverseRecOn with
  | nil => exact .refl _
  | append_singleton pairs pair ih =>
    have hstep : grouped (pairs ++ [pair]) = addToGroup pair.1 pair.2 (grouped pairs) :=
      List.foldl_concat ..
    rw [hstep]
    exact (ungrouped_addToGroup pair.1 pair.2 _).trans (ih.append_right _)

end

/-! ### What rows give -/

namespace ConstraintRow

/-- The row gives a column of a unique constraint that it names. -/
def givesUnique (r : ConstraintRow) : Bool :=
  r.isUnique && r.constraintName.isSome && r.columnName.isSome

/-- The constraint and the column that a row names. -/
def pair? (r : ConstraintRow) : Option (String × String) :=
  r.constraintName.bind fun name => r.columnName.map fun column => (name, column)

/-- The reference has the four names of the row. -/
structure Refers (r : ConstraintRow) (k : ForeignKey) : Prop where
  constraintName : r.constraintName = some k.constraintName
  columnName : r.columnName = some k.column
  referencedTableName : r.referencedTableName = some k.referencedTable
  referencedColumnName : r.referencedColumnName = some k.referencedColumn

theorem uniquePair?_eq {r : ConstraintRow} (h : r.NamesFilled) :
    r.uniquePair? = if r.givesUnique then r.pair? else none := by
  obtain ⟨hname, hcolumn, -, -⟩ := h
  rw [uniquePair?, givesUnique, pair?]
  cases hn : r.constraintName with
  | none => simp
  | some name =>
    cases hc : r.columnName with
    | none => simp
    | some column =>
      have hne : name ≠ "" := hname name (by rw [hn]; rfl)
      have hne' : column ≠ "" := hcolumn column (by rw [hc]; rfl)
      simp [hne, hne']

/-- Where rows give columns of unique constraints, each has a name and a column. -/
theorem exists_pair?_of_givesUnique {r : ConstraintRow} (h : r.givesUnique = true) :
    ∃ name column, r.constraintName = some name ∧ r.columnName = some column ∧
      r.pair? = some (name, column) := by
  rw [givesUnique, Bool.and_eq_true, Bool.and_eq_true, Option.isSome_iff_exists,
    Option.isSome_iff_exists] at h
  obtain ⟨⟨-, name, hname⟩, column, hcolumn⟩ := h
  refine ⟨name, column, hname, hcolumn, ?_⟩
  rw [pair?, hname, hcolumn]
  rfl

theorem foreignKey?_isSome (r : ConstraintRow) : r.foreignKey?.isSome = r.isForeign := by
  rw [foreignKey?, isForeign]
  cases r.constraintName <;> cases r.columnName <;> cases r.referencedTableName <;>
    cases r.referencedColumnName <;> rfl

theorem refers_of_foreignKey? {r : ConstraintRow} {k : ForeignKey} (h : r.foreignKey? = some k) :
    r.Refers k := by
  rw [foreignKey?] at h
  split at h
  next hname hcolumn htable htarget =>
    obtain rfl := Option.some.inj h
    exact ⟨hname, hcolumn, htable, htarget⟩
  next => cases h

end ConstraintRow

namespace Key

open ConstraintRow (givesUnique pair? Refers)

variable {rows : List ConstraintRow}

/-- The pairs that are grouped are those of the rows that give columns of unique constraints. -/
theorem filterMap_uniquePair? (h : ∀ r ∈ rows, r.NamesFilled) :
    rows.filterMap (·.uniquePair?) = (rows.filter (·.givesUnique)).filterMap (·.pair?) := by
  rw [List.filterMap_filter]
  exact List.filterMap_congr fun r hr => by rw [ConstraintRow.uniquePair?_eq (h r hr)]

section
variable {given : List ConstraintRow}

theorem map_fst_pair? (h : ∀ r ∈ given, r.givesUnique = true) :
    (given.filterMap (·.pair?)).map (·.1) = given.filterMap (·.constraintName) := by
  rw [List.map_filterMap]
  refine List.filterMap_congr fun r hr => ?_
  obtain ⟨name, column, hname, -, hpair⟩ := ConstraintRow.exists_pair?_of_givesUnique (h r hr)
  rw [hname, hpair]
  rfl

theorem valuesUnder_pair? (h : ∀ r ∈ given, r.givesUnique = true) (name : String) :
    valuesUnder name (given.filterMap (·.pair?)) =
      (given.filter (·.constraintName = some name)).filterMap (·.columnName) := by
  rw [valuesUnder, List.filter_filterMap, List.map_filterMap, List.filterMap_filter]
  refine List.filterMap_congr fun r hr => ?_
  obtain ⟨n, column, hname, hcolumn, hpair⟩ := ConstraintRow.exists_pair?_of_givesUnique (h r hr)
  rw [hname, hcolumn, hpair]
  by_cases hn : n = name <;> simp [hn, Option.filter]

end

theorem forall₂_refers (rows : List ConstraintRow) :
    List.Forall₂ Refers (rows.filter (·.isForeign)) (rows.filterMap (·.foreignKey?)) := by
  induction rows with
  | nil => exact .nil
  | cons r rows ih =>
    have hsome := r.foreignKey?_isSome
    cases hk : r.foreignKey? with
    | none =>
      rw [hk] at hsome
      rw [List.filter_cons_of_neg (by simp [← hsome]), List.filterMap_cons_none hk]
      exact ih
    | some k =>
      rw [hk] at hsome
      rw [List.filter_cons_of_pos (by simp [← hsome]), List.filterMap_cons_some hk]
      exact .cons (ConstraintRow.refers_of_foreignKey? hk) ih

/-- The keys of rows: one for each name among the rows that give columns of unique constraints, in the order in
which the names first stand, with the columns of all rows of that name in their order; one for each row that
refers to another table, in the order of the rows and with their names. Together the unique keys hold as many
columns as rows give, each under its own name. -/
structure Collected (rows : List ConstraintRow) (uniques : List UniqueComposite)
    (foreigns : List ForeignKey) : Prop where
  names : uniques.map (·.constraintName) =
    ((rows.filter (·.givesUnique)).filterMap (·.constraintName)).eraseDups
  distinct : (uniques.map (·.constraintName)).Nodup
  columns : ∀ k ∈ uniques, k.columns = ((rows.filter (·.givesUnique)).filter
    (·.constraintName = some k.constraintName)).filterMap (·.columnName)
  complete : (uniques.flatMap fun k => k.columns.map fun column => (k.constraintName, column)).Perm
    ((rows.filter (·.givesUnique)).filterMap (·.pair?))
  foreigns : List.Forall₂ Refers (rows.filter (·.isForeign)) foreigns

/-- Rows whose names are null or not empty have keys, and these are collected from them. -/
theorem ofRows_collected (h : ∀ r ∈ rows, r.NamesFilled) : ∃ uniques foreigns,
    ofRows rows = .ok (uniques.map .unique ++ foreigns.map .foreign) ∧
      Collected rows uniques foreigns := by
  have hgiven : ∀ r ∈ rows.filter (·.givesUnique), r.givesUnique = true :=
    fun r hr => (List.mem_filter.1 hr).2
  have huniques : uniqueOfRows rows =
      (((rows.filter (·.givesUnique)).filterMap (·.constraintName)).eraseDups).map fun name =>
        ⟨name, ((rows.filter (·.givesUnique)).filter (·.constraintName = some name)).filterMap
          (·.columnName)⟩ := by
    rw [uniqueOfRows, grouped_eq, filterMap_uniquePair? h, map_fst_pair? hgiven, List.map_map]
    exact List.map_congr_left fun name _ => by
      rw [Function.comp_apply, valuesUnder_pair? hgiven]
  have hnames : (uniqueOfRows rows).map (·.constraintName) =
      ((rows.filter (·.givesUnique)).filterMap (·.constraintName)).eraseDups := by
    rw [huniques, List.map_map]
    exact List.map_id _
  refine ⟨uniqueOfRows rows, rows.filterMap (·.foreignKey?), ofRows_eq_ok h, hnames, ?_, ?_, ?_, ?_⟩
  · rw [hnames]
    exact nodup_eraseDups _
  · intro k hk
    rw [huniques] at hk
    obtain ⟨name, -, rfl⟩ := List.mem_map.1 hk
    rfl
  · have hungrouped : ((uniqueOfRows rows).flatMap fun k =>
        k.columns.map fun column => (k.constraintName, column)) =
        ungrouped (grouped (rows.filterMap (·.uniquePair?))) := by
      rw [uniqueOfRows, List.flatMap_map]
      rfl
    rw [hungrouped, ← filterMap_uniquePair? h]
    exact ungrouped_grouped _
  · exact forall₂_refers rows

/-- Rows of two unique constraints and of a reference, out of order and among rows of statistics. -/
def shuffledRows : List ConstraintRow :=
  [{ constraintName := some "u_slot", constraintType := some "unique", columnName := some "day" },
    { columnName := some "day", indexName := some "i_day" },
    { constraintName := some "u_code", constraintType := some "UNIQUE", columnName := some "code" },
    { constraintName := some "fk_room", constraintType := some "FOREIGN KEY",
      columnName := some "room", referencedTableName := some "room",
      referencedColumnName := some "id" },
    { constraintName := some "u_slot", constraintType := some "Unique", columnName := some "hour" }]

theorem ofRows_collected_shuffledRows : (∀ r ∈ shuffledRows, r.NamesFilled) ∧
    ∃ (uniques : List UniqueComposite) (foreigns : List ForeignKey),
      ofRows shuffledRows = .ok (uniques.map .unique ++ foreigns.map .foreign) ∧
      uniques.map (·.constraintName) = ["u_slot", "u_code"] ∧
      (∀ k ∈ uniques, k.constraintName = "u_slot" → k.columns = ["day", "hour"]) ∧
      foreigns = [⟨"fk_room", "room", "room", "id"⟩] := by
  have hfilled : ∀ r ∈ shuffledRows, r.NamesFilled := by decide
  obtain ⟨uniques, foreigns, hkeys, hcollected⟩ := ofRows_collected hfilled
  refine ⟨hfilled, uniques, foreigns, hkeys, hcollected.names.trans (by decide), fun k hk hname => ?_, ?_⟩
  · rw [hcollected.columns k hk, hname]
    decide
  · obtain ⟨k, rest, hrefers, hrest, rfl⟩ := List.forall₂_cons_left_iff.1 hcollected.foreigns
    obtain rfl := List.forall₂_nil_left_iff.1 hrest
    obtain ⟨hname, hcolumn, htable, htarget⟩ := hrefers
    cases k
    cases hname
    cases hcolumn
    cases htable
    cases htarget
    rfl

end Key

end CatalogSync
