import CatalogSync.Catalog.Table
import CatalogSync.Proofs.Catalog.Key
import Mathlib.Data.List.Dedup

/-!
Making tables, and what their checks grant. A table is made of a name that is not empty and of columns
with distinct names; a table that was read has moreover references whose names are all there.
-/

namespace CatalogSync

theorem repeatedNames_eq_nil_iff {names : List String} : repeatedNames names = [] ↔ names.Nodup := by
  have hnone : repeatedNames names = [] ↔ ∀ n ∈ names, ¬1 < names.count n := by
    rw [repeatedNames, ← List.length_eq_zero_iff, List.length_mergeSort, List.length_eq_zero_iff]
    constructor
    · intro h n hn hcount
      have hmem : n ∈ (names.filter fun n => 1 < names.count n).eraseDups := by
        simp [List.mem_eraseDups, hn, hcount]
      rw [h] at hmem
      cases hmem
    · intro h
      have hfilter : (names.filter fun n => 1 < names.count n) = [] :=
        List.filter_eq_nil_iff.2 fun n hn => by simpa using h n hn
      rw [hfilter]
      rfl
  rw [hnone, List.nodup_iff_count_le_one]
  constructor
  · intro h n
    by_cases hn : n ∈ names
    · exact Nat.le_of_not_lt (h n hn)
    · rw [List.count_eq_zero_of_not_mem hn]
      exact Nat.zero_le 1
  · exact fun h n _ => Nat.not_lt_of_le (h n)

/-- Columns pass their checks exactly if there are any and no two share a name. -/
theorem Table.checkedColumns_eq_valid_iff {columns found : List Column} :
    checkedColumns columns = .valid found ↔
      found = columns ∧ columns ≠ [] ∧ (columns.map (·.field)).Nodup := by
  rw [checkedColumns]
  cases hsome : Record.someItems columns with
  | invalid faults =>
    refine iff_of_false nofun fun h => ?_
    rw [Record.someItems_eq_valid_iff.2 ⟨h.2.1, rfl⟩] at hsome
    cases hsome
  | valid l =>
    obtain ⟨hne, rfl⟩ := Record.someItems_eq_valid_iff.1 hsome
    simp only [Validated.andThen, distinctColumns, repeatedNames_eq_nil_iff]
    split
    next hdistinct => simp [hne, hdistinct, eq_comm]
    next hrepeats => simp [hrepeats, Validated.fault]

theorem Table.make_eq_ok {name : String} {columns : List Column} (keys : List Key)
    (hname : name ≠ "") (hne : columns ≠ []) (hcolumns : (columns.map (·.field)).Nodup) :
    Table.make name columns keys = .ok ⟨name, columns, keys⟩ := by
  rw [make, checkedColumns_eq_valid_iff.2 ⟨rfl, hne, hcolumns⟩, Record.checked_someText_text hname]
  rfl

theorem Table.make_eq_ok_iff {name : String} {columns : List Column} {keys : List Key} {t : Table} :
    Table.make name columns keys = .ok t ↔
      t = ⟨name, columns, keys⟩ ∧ name ≠ "" ∧ columns ≠ [] ∧ (columns.map (·.field)).Nodup := by
  constructor
  · intro h
    have hvalid := Validated.eq_valid_of_toExcept h
    rw [Validated.functor_map_eq] at hvalid
    obtain ⟨_, found, hmap, hcolumns, rfl⟩ := Validated.seq_eq_valid_iff.1 hvalid
    obtain ⟨_, hname, rfl⟩ := Validated.map_eq_valid_iff.1 hmap
    obtain ⟨heq, hfilled⟩ := Record.checked_someText_eq_valid_iff.1 hname
    cases heq
    obtain ⟨rfl, hdistinct⟩ := checkedColumns_eq_valid_iff.1 (Validated.under_eq_valid_iff.1 hcolumns)
    exact ⟨rfl, hfilled, hdistinct⟩
  · rintro ⟨rfl, hname, hne, hdistinct⟩
    exact make_eq_ok keys hname hne hdistinct

/-! ### Tables that were checked -/

/-- What the checks of a table grant: it is valid, and the names of its references are there. -/
structure Table.Sound (t : Table) : Prop where
  valid : t.Valid
  foreign : ∀ k ∈ t.foreignKeys, k.Filled

open Record

theorem Column.filled_of_decoder {j : Json} {c : Column} (h : decoder j = .valid c) :
    c.field ≠ "" ∧ c.sqlType ≠ "" := by
  obtain ⟨members, -, h₆⟩ := exists_of_closed h
  rw [Validated.functor_map_eq] at h₆
  obtain ⟨_, extra, h₅, -, rfl⟩ := Validated.seq_eq_valid_iff.1 h₆
  obtain ⟨_, default, h₄, -, rfl⟩ := Validated.seq_eq_valid_iff.1 h₅
  obtain ⟨_, flag, h₃, -, rfl⟩ := Validated.seq_eq_valid_iff.1 h₄
  obtain ⟨_, nullable, h₂, -, rfl⟩ := Validated.seq_eq_valid_iff.1 h₃
  obtain ⟨_, sqlType, h₁, htype, rfl⟩ := Validated.seq_eq_valid_iff.1 h₂
  obtain ⟨field, hfield, rfl⟩ := Validated.map_eq_valid_iff.1 h₁
  obtain ⟨j, -, hj⟩ := exists_of_required hfield
  obtain ⟨k, -, hk⟩ := exists_of_required htype
  exact ⟨ne_of_someText hj, ne_of_someText hk⟩

theorem ForeignKey.filled_of_decoder {j : Json} {k : ForeignKey} (h : decoder j = .valid k) :
    k.Filled := by
  obtain ⟨members, -, h₅⟩ := exists_of_closed h
  rw [Validated.functor_map_eq] at h₅
  obtain ⟨_, target, h₄, htarget, rfl⟩ := Validated.seq_eq_valid_iff.1 h₅
  obtain ⟨_, table, h₃, htable, rfl⟩ := Validated.seq_eq_valid_iff.1 h₄
  obtain ⟨_, column, h₂, hcolumn, rfl⟩ := Validated.seq_eq_valid_iff.1 h₃
  obtain ⟨_, constraint, h₁, hconstraint, rfl⟩ := Validated.seq_eq_valid_iff.1 h₂
  obtain ⟨_, -, rfl⟩ := Validated.map_eq_valid_iff.1 h₁
  have hsome : ∀ {name value : String}, required members name someText = .valid value → value ≠ "" := by
    intro name value hvalue
    obtain ⟨j, -, hj⟩ := exists_of_required hvalue
    exact ne_of_someText hj
  exact ⟨hsome hconstraint, hsome hcolumn, hsome htable, hsome htarget⟩

namespace Table

theorem valid_of_columnsDecoder {j : Json} {columns : List Column}
    (h : columnsDecoder j = .valid columns) : columns ≠ [] ∧ (columns.map (·.field)).Nodup ∧
      ∀ c ∈ columns, c.field ≠ "" ∧ c.sqlType ≠ "" := by
  rw [columnsDecoder] at h
  cases hlist : list Column.decoder j with
  | invalid faults =>
    rw [hlist] at h
    cases h
  | valid cs =>
    rw [hlist] at h
    obtain ⟨rfl, hne, hdistinct⟩ := checkedColumns_eq_valid_iff.1 h
    refine ⟨hne, hdistinct, fun c hc => ?_⟩
    obtain ⟨k, hk⟩ := exists_of_list hlist c hc
    exact Column.filled_of_decoder hk

/-- A table that was read is sound. -/
theorem sound_of_decoder {j : Json} {t : Table} (h : decoder j = .valid t) : t.Sound := by
  obtain ⟨members, -, h₃⟩ := exists_of_closed h
  rw [Validated.functor_map_eq] at h₃
  obtain ⟨_, keys, h₂, hkeys, rfl⟩ := Validated.seq_eq_valid_iff.1 h₃
  obtain ⟨_, columns, h₁, hcolumns, rfl⟩ := Validated.seq_eq_valid_iff.1 h₂
  obtain ⟨name, hname, rfl⟩ := Validated.map_eq_valid_iff.1 h₁
  obtain ⟨j, -, hj⟩ := exists_of_required hname
  obtain ⟨k, -, hk⟩ := exists_of_required hcolumns
  refine ⟨⟨ne_of_someText hj, valid_of_columnsDecoder hk⟩, fun k hk => ?_⟩
  obtain ⟨key, hkey, hforeign⟩ := List.mem_filterMap.1 hk
  rcases exists_of_optional hkeys with rfl | ⟨v, -, hv⟩
  · cases hkey
  · obtain ⟨i, hi⟩ := exists_of_list hv key hkey
    cases key with
    | unique u => cases hforeign
    | foreign f =>
      obtain rfl := Option.some.inj hforeign
      rw [Key.decoder] at hi
      split at hi
      next hf =>
        cases hi
        exact ForeignKey.filled_of_decoder hf
      next => cases hi
      next => cases hi

end Table

end CatalogSync
