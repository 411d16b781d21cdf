import CatalogSync.Catalog.Key
import CatalogSync.Proofs.Collect
import CatalogSync.Proofs.Record.Decode
import Mathlib.Data.List.Induction
import Mathlib.Data.List.Nodup

/-!
Keys collected from rows. Grouping values by name keeps their order: that of the names as they first
stand, and within each group that of its values. The keys of rows are made without a fault where no cell
that gives a name gives an empty one.
-/

namespace CatalogSync

/-! ### Groups -/

section
variable {α : Type}

theorem eraseDups_concat (names : List String) (name : String) :
    (names ++ [name]).eraseDups =
      if name ∈ names then names.eraseDups else names.eraseDups ++ [name] := by
  rw [List.eraseDups_append]
  by_cases h : name ∈ names
  · simp [List.removeAll, h]
  · simp [List.removeAll, h, List.eraseDups_cons]

theorem nodup_eraseDups (names : List String) : names.eraseDups.Nodup := by
  induction names using List.reverseRecOn with
  | nil => exact List.nodup_nil
  | append_singleton names name ih =>
    rw [eraseDups_concat]
    by_cases h : name ∈ names
    · rw [if_pos h]
      exact ih
    · rw [if_neg h, ← List.concat_eq_append]
      exact ih.concat (mt List.mem_eraseDups.1 h)

/-- The values that stand under a name, in their order. -/
def valuesUnder (name : String) (pairs : List (String × α)) : List α :=
  (pairs.filter (·.1 = name)).map (·.2)

theorem valuesUnder_concat (n name : String) (value : α) (pairs : List (String × α)) :
    valuesUnder n (pairs ++ [(name, value)]) =
      if n = name then valuesUnder n pairs ++ [value] else valuesUnder n pairs := by
  by_cases h : n = name
  · simp [valuesUnder, h]
  · simp [valuesUnder, h, Ne.symm h]

theorem mem_valuesUnder {name : String} {value : α} {pairs : List (String × α)} :
    value ∈ valuesUnder name pairs ↔ (name, value) ∈ pairs := by
  simp [valuesUnder]

/-- Where each name has one group, a value joins the group of its name, or a new one in the last place. -/
theorem addToGroup_map {names : List String} (hnodup : names.Nodup) (values : String → List α)
    (name : String) (value : α) (hnew : name ∉ names → values name = []) :
    addToGroup name value (names.map fun n => (n, values n)) =
      (if name ∈ names then names else names ++ [name]).map fun n =>
        (n, if n = name then values n ++ [value] else values n) := by
  induction names with
  | nil => simp [addToGroup, hnew]
  | cons n names ih =>
    obtain ⟨hn, hnames⟩ := List.nodup_cons.1 hnodup
    rw [List.map_cons, addToGroup]
    by_cases hname : n = name
    · subst hname
      have hrest : ∀ m ∈ names, m ≠ n := fun m hm hmn => hn (hmn ▸ hm)
      rw [if_pos rfl, if_pos List.mem_cons_self, List.map_cons, if_pos rfl]
      refine congrArg _ (List.map_congr_left fun m hm => ?_)
      rw [if_neg (hrest m hm)]
    · have hmem : name ∈ n :: names ↔ name ∈ names := by simp [Ne.symm hname]
      rw [if_neg hname, ih hnames fun h => hnew (mt hmem.1 h)]
      by_cases h : name ∈ names
      · simp [h, hname]
      · simp [h, hname, Ne.symm hname]

/-- Grouping is a stable partition: one group for each name, in the order in which the names first stand,
and in it the values of that name in their order. -/
theorem grouped_eq (pairs : List (String × α)) :
    grouped pairs = (pairs.map (·.1)).eraseDups.map fun n => (n, valuesUnder n pairs) := by
  -- By the last pair, since it is the one that joins the groups of all before it.
  induction pairs using List.reverseRecOn with
  | nil => rfl
  | append_singleton pairs pair ih =>
    obtain ⟨name, value⟩ := pair
    have hstep : grouped (pairs ++ [(name, value)]) = addToGroup name value (grouped pairs) :=
      List.foldl_concat ..
    have hnew : name ∉ (pairs.map (·.1)).eraseDups → valuesUnder name pairs = [] := by
      intro h
      refine List.eq_nil_iff_forall_not_mem.2 fun v hv => h (List.mem_eraseDups.2 ?_)
      exact List.mem_map_of_mem (mem_valuesUnder.1 hv)
    rw [hstep, ih, addToGroup_map (nodup_eraseDups _) _ _ _ hnew, List.map_append, List.map_singleton,
      eraseDups_concat]
    simp only [List.mem_eraseDups, valuesUnder_concat]

example : grouped [("fk_line", 1), ("fk_depot", 2), ("fk_line", 3)] =
    [("fk_line", [1, 3]), ("fk_depot", [2])] := by
  decide

end

/-! ### Keys of rows -/

theorem UniqueComposite.make_eq_ok {k : UniqueComposite} (hname : k.constraintName ≠ "")
    (hcolumns : k.columns ≠ []) : make k = .ok k := by
  rw [make, Record.checked_someText_text hname, Record.someItems_eq_valid_iff.2 ⟨hcolumns, rfl⟩]
  rfl

/-- The four names of a reference are there. -/
@[mk_iff]
structure ForeignKey.Filled (k : ForeignKey) : Prop where
  constraintName : k.constraintName ≠ ""
  column : k.column ≠ ""
  referencedTable : k.referencedTable ≠ ""
  referencedColumn : k.referencedColumn ≠ ""

instance (k : ForeignKey) : Decidable k.Filled := decidable_of_iff' _ (ForeignKey.filled_iff k)

theorem ForeignKey.make_eq_ok {k : ForeignKey} (h : k.Filled) : make k = .ok k := by
  rw [make, Record.checked_someText_text h.constraintName, Record.checked_someText_text h.column,
    Record.checked_someText_text h.referencedTable, Record.checked_someText_text h.referencedColumn]
  rfl

/-- Each cell of a row that gives a name is null or gives a name that is not empty. -/
@[mk_iff]
structure ConstraintRow.NamesFilled (r : ConstraintRow) : Prop where
  constraintName : ∀ name ∈ r.constraintName, name ≠ ""
  columnName : ∀ name ∈ r.columnName, name ≠ ""
  referencedTableName : ∀ name ∈ r.referencedTableName, name ≠ ""
  referencedColumnName : ∀ name ∈ r.referencedColumnName, name ≠ ""

instance (r : ConstraintRow) : Decidable r.NamesFilled :=
  decidable_of_iff' _ (ConstraintRow.namesFilled_iff r)

theorem ConstraintRow.fst_ne_of_uniquePair? {r : ConstraintRow} {pair : String × String}
    (h : r.uniquePair? = some pair) : pair.1 ≠ "" := by
  rw [uniquePair?] at h
  split at h
  next name column _ _ =>
    split at h
    next hnames =>
      obtain rfl := Option.some.inj h
      exact hnames.2.1
    next => cases h
  next => cases h

theorem ConstraintRow.filled_of_foreignKey? {r : ConstraintRow} (h : r.NamesFilled) {k : ForeignKey}
    (hk : r.foreignKey? = some k) : k.Filled := by
  rw [foreignKey?] at hk
  split at hk
  next name column table target hname hcolumn htable htarget =>
    obtain rfl := Option.some.inj hk
    exact ⟨h.constraintName name hname, h.columnName column hcolumn,
      h.referencedTableName table htable, h.referencedColumnName target htarget⟩
  next => cases hk

/-- The unique constraints of rows pass the checks of a key: each has its name, and the column of the
row that names it. -/
theorem Key.make_of_mem_uniqueOfRows {rows : List ConstraintRow} {k : UniqueComposite}
    (h : k ∈ uniqueOfRows rows) : UniqueComposite.make k = .ok k := by
  rw [uniqueOfRows, grouped_eq, List.map_map] at h
  obtain ⟨name, hname, rfl⟩ := List.mem_map.1 h
  obtain ⟨pair, hpair, rfl⟩ := List.mem_map.1 (List.mem_eraseDups.1 hname)
  obtain ⟨r, -, hr⟩ := List.mem_filterMap.1 hpair
  exact UniqueComposite.make_eq_ok (r.fst_ne_of_uniquePair? hr)
    (List.ne_nil_of_mem (mem_valuesUnder.2 hpair))

/-- Rows whose names are filled have keys. -/
theorem Key.ofRows_eq_ok {rows : List ConstraintRow} (h : ∀ r ∈ rows, r.NamesFilled) :
    Key.ofRows rows = .ok
      ((uniqueOfRows rows).map .unique ++ (rows.filterMap (·.foreignKey?)).map .foreign) := by
  have hunique : ∀ k ∈ uniqueOfRows rows, UniqueComposite.make k = .ok k :=
    fun _ => make_of_mem_uniqueOfRows
  have hforeign : ∀ k ∈ rows.filterMap (·.foreignKey?), ForeignKey.make k = .ok k := by
    intro k hk
    obtain ⟨r, hr, hfound⟩ := List.mem_filterMap.1 hk
    exact ForeignKey.make_eq_ok (ConstraintRow.filled_of_foreignKey? (h r hr) hfound)
  rw [ofRows, mapM_eq_ok_self_iff.2 hunique, mapM_eq_ok_self_iff.2 hforeign]
  rfl

end CatalogSync
