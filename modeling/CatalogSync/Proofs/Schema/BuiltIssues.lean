import CatalogSync.Proofs.Schema.Issues
import CatalogSync.Proofs.Schema.PrimaryKey

/-!
What the checks find in the schema of catalog tables. The key directive of a model names fields of it, and no
other directive has a list of a key; columns give fields without a relation, and the type of a constraint's
field is the table that its first reference leads to. So where no two tables have one name, the checks find
no more than names of fields that come again and, for each constraint whose first reference leads to none of the
tables, the field that was built for it.
-/

namespace CatalogSync

open Text (joined splitOn trim)

/-- A name that directives and types keep apart from their own marks: it holds no comma, no square bracket and
no question mark, and no white space stands around it. -/
@[mk_iff]
structure BareName (s : String) : Prop where
  trimmed : Trimmed s.toList
  unmarked : ∀ c ∈ [',', '[', ']', '?'], c ∉ s.toList

instance (s : String) : Decidable (BareName s) := decidable_of_iff' _ (bareName_iff s)

/-- The names of a table that directives and types are written with are bare. -/
@[mk_iff]
structure Table.BareNames (t : Table) : Prop where
  columns : ∀ c ∈ t.columns, BareName c.field
  foreign : ∀ k ∈ t.foreignKeys, BareName k.referencedTable
  unique : ∀ k ∈ t.uniqueComposites,
    BareName k.constraintName ∧ ∀ column ∈ k.columns, BareName column

instance (t : Table) : Decidable t.BareNames := decidable_of_iff' _ (Table.bareNames_iff t)

/-! ### Lists of keys -/

/-- Cutting at commas finds items that hold none where a space follows each comma between them. -/
theorem map_trim_splitOn_joined {items : List (List Char)} (hne : items ≠ [])
    (h : ∀ item ∈ items, ',' ∉ item) :
    (splitOn [','] (joined [',', ' '] items)).map trim = items.map trim := by
  induction items with
  | nil => exact absurd rfl hne
  | cons item items ih =>
    obtain ⟨hitem, hitems⟩ := List.forall_mem_cons.1 h
    have hwhole : splitOn [','] item = [item] :=
      Text.splitOn_of_not_isInfix fun hmark => hitem ((List.singleton_infix_iff _ _).1 hmark)
    cases items with
    | nil => rw [joined, hwhole]
    | cons next items =>
      have htext : joined [',', ' '] (item :: next :: items) =
          item ++ ',' :: ([] ++ ([' '] ++ joined [',', ' '] (next :: items))) := by
        simp [joined]
      have hspace : ∀ c ∈ [' '], Text.isBlank c = true := by decide
      rw [htext, Text.splitOn_append_mark List.not_mem_nil, hwhole, List.map_append,
        Text.map_trim_splitOn_append_left (by decide) hspace, ih (by simp) hitems]
      rfl

/-- No bracket stands in the text that joins bare names. -/
theorem not_mem_joined_of_bareName {names : List String} (h : ∀ name ∈ names, BareName name) {c : Char}
    (hc : c ∈ ['[', ']']) : c ∉ joined [',', ' '] (names.map (·.toList)) := by
  have hseparator : ∀ d ∈ [',', ' '], d ≠ c := by
    rintro d hd rfl
    simp only [List.mem_cons, List.not_mem_nil, or_false] at hc hd
    rcases hc with rfl | rfl <;> simp at hd
  have hall : ∀ d ∈ joined [',', ' '] (names.map (·.toList)), d ≠ c := by
    refine Text.forall_mem_joined hseparator fun item hitem => ?_
    obtain ⟨name, hname, rfl⟩ := List.mem_map.1 hitem
    rintro d hd rfl
    refine (h name hname).unmarked d ?_ hd
    exact List.mem_cons_of_mem _ (List.mem_append_left ['?'] hc)
  exact fun hmem => hall c hmem rfl

namespace Schema

open Model (idDirective uniqueDirective toList_idDirective toList_uniqueDirective)

/-- The names that are checked in the directive of a key are the names of the key. -/
theorem idNames_idDirective {names : List String} (hne : names ≠ [])
    (h : ∀ name ∈ names, name ≠ "" ∧ BareName name) : idNames (idDirective names) = names := by
  have hclosed : ']' ∉ joined [',', ' '] (names.map (·.toList)) :=
    not_mem_joined_of_bareName (fun name hname => (h name hname).2) (by simp)
  have hlist : idNames? (idDirective names).toList =
      some (joined [',', ' '] (names.map (·.toList))) := by
    rw [toList_idDirective, List.cons_append, List.cons_append, List.nil_append,
      idNames?_cons_of_ne (by decide), idNames?_cons_of_ne (by decide), idNames?_append hclosed]
  have hcut : (splitOn [','] (joined [',', ' '] (names.map (·.toList)))).map trim =
      names.map (·.toList) := by
    rw [map_trim_splitOn_joined (by simpa using hne) fun item hitem => ?_]
    · rw [List.map_map]
      exact List.map_congr_left fun name hname => (h name hname).2.trimmed
    · obtain ⟨name, hname, rfl⟩ := List.mem_map.1 hitem
      exact (h name hname).2.unmarked ',' (by simp)
  have hkept : (names.map (·.toList)).filter (!·.isEmpty) = names.map (·.toList) := by
    refine List.filter_eq_self.2 fun item hitem => ?_
    obtain ⟨name, hname, rfl⟩ := List.mem_map.1 hitem
    simpa using (h name hname).1
  simp only [idNames, hlist, Relation.trimmedPieces, hcut, hkept, List.map_map, Function.comp_def,
    String.ofList_toList, List.map_id']

/-- No name is checked in the directive of a unique constraint: a list of a key would begin at its one bracket
that opens, and other words stand in front of that. -/
theorem idNames_uniqueDirective {k : UniqueComposite} (hname : BareName k.constraintName)
    (hcolumns : ∀ column ∈ k.columns, BareName column) : idNames (uniqueDirective k) = [] := by
  have hrest : '[' ∉ joined [',', ' '] (k.columns.map (·.toList)) ++
      ("], map: \"".toList ++ (k.constraintName.toList ++ "\")".toList)) := by
    simp only [List.mem_append, not_or]
    exact ⟨not_mem_joined_of_bareName hcolumns (by simp), by decide, hname.unmarked '[' (by simp),
      by decide⟩
  have hnone : idNames? (uniqueDirective k).toList = none := by
    refine Option.eq_none_iff_forall_ne_some.2 fun list hlist => ?_
    obtain ⟨before, rest, hsplit, ⟨-, after, hstarts⟩, -⟩ := idNames?_eq_some_iff.1 hlist
    have hopened : before ++ "@@id(".toList ++ '[' :: (list ++ "])".toList ++ after) =
        "  @@unique(".toList ++ '[' :: (joined [',', ' '] (k.columns.map (·.toList)) ++
          ("], map: \"".toList ++ (k.constraintName.toList ++ "\")".toList))) := by
      have hunique := toList_uniqueDirective k
      rw [hsplit, ← hstarts] at hunique
      simpa using hunique
    have hfront : '[' ∉ "  @@unique(".toList := by decide
    obtain ⟨hwords, -, -⟩ := (List.append_cons_inj_of_notMem hfront hrest).1 hopened.symm
    exact absurd ⟨before, hwords.symm⟩ (by decide : ¬"@@id(".toList <:+ "  @@unique(".toList)
  rw [idNames, hnone]

/-! ### What the fields of relations lead to -/

/-- The marker of a field's type says nothing about the model that the type leads to. -/
theorem relationTarget_append {s : String} (h : BareName s) (required : Bool) :
    relationTarget (s ++ if required then "" else "?") = s := by
  have hmarker : ∀ c ∈ (if required then "" else "?").toList, c = '?' := by
    cases required <;> decide
  have hbracket : '[' ∉ s.toList ++ (if required then "" else "?").toList := by
    rw [List.mem_append, not_or]
    exact ⟨h.unmarked '[' (by simp), fun hmem => absurd (hmarker _ hmem) (by decide)⟩
  have hwhole : Text.remove TypeRule.arrayMarker.toList (s ++ if required then "" else "?").toList =
      s.toList ++ (if required then "" else "?").toList := by
    have hmark : ¬TypeRule.arrayMarker.toList <:+: s.toList ++ (if required then "" else "?").toList :=
      fun hpart => hbracket (hpart.subset (by decide))
    rw [String.toList_append, Text.remove, Text.splitOn_of_not_isInfix hmark, List.flatten_singleton]
  have hlast : ∀ c ∈ s.toList.getLast?, decide (c = '?') = false := by
    intro c hc
    refine decide_eq_false ?_
    rintro rfl
    exact h.unmarked '?' (by simp) (List.mem_of_getLast? hc)
  rw [relationTarget, hwhole, Text.dropTrailing_append_of_all _ (by simpa using hmarker),
    Text.dropTrailing_eq_self hlast, String.ofList_toList]

end Schema

namespace Table

/-- The first reference of the constraint leads to none of the named tables. -/
def straysFrom (names : List String) (t : Table) (constraint : String) : Bool :=
  (t.keysOf constraint).head?.any (·.referencedTable ∉ names)

/-- The constraints of tables that lead to none of them, each with its table: in the order of the tables, and
for each table in the order in which the constraints first stand among its keys. -/
def strays (tables : List Table) : List (Table × String) :=
  tables.flatMap fun t => (t.constraints.filter (t.straysFrom (tables.map (·.name)))).map (t, ·)

/-- The issue says of a table and one of its constraints that the field which the model of the table has for
the constraint leads to no model, and names the table of the first reference. -/
def ReportsStray (stray : Table × String) (issue : Issue) : Prop :=
  ∃ f ∈ (Model.ofTable stray.1).fields, stray.1.Joins stray.2 f ∧
    ∃ first, (stray.1.keysOf stray.2).head? = some first ∧
      issue = .unknownRelationTarget stray.1.name f.name first.referencedTable

end Table

namespace Schema

open Table (ReportsStray)

variable {t : Table} {s : Schema}

/-- What is found about the field of a constraint is that the constraint strays, where it does. -/
theorem forall₂_relationIssuesOf (hbare : t.BareNames) {constraint : String} {f : Field}
    (hf : f ∈ (Model.ofTable t).fields) (hjoins : t.Joins constraint f) :
    List.Forall₂ ReportsStray (([constraint].filter (t.straysFrom s.modelNames)).map (t, ·))
      (s.relationIssuesOf (Model.ofTable t) f) := by
  obtain ⟨r, columns, references, hr, -, hcolumns, -, -, hzip⟩ := hjoins.relation
  obtain ⟨first, hfirst, htype⟩ := hjoins.type
  have hkey : first ∈ t.foreignKeys := List.mem_of_mem_filter (List.mem_of_mem_head? hfirst)
  have htarget : relationTarget f.type = first.referencedTable := by
    rw [htype, relationTarget_append (hbare.foreign first hkey)]
  have hmeaningful : r.isMeaningful = true := by
    have hne : columns ≠ [] := by
      rintro rfl
      rw [List.zip_nil_left, eq_comm, List.map_eq_nil_iff] at hzip
      rw [hzip] at hfirst
      cases hfirst
    simp [Relation.isMeaningful, hcolumns, hne]
  have hstrays : t.straysFrom s.modelNames constraint = true ↔ first.referencedTable ∉ s.modelNames := by
    rw [Table.straysFrom, hfirst, Option.any_some, decide_eq_true_iff]
  rw [relationIssuesOf, hr]
  simp only [hmeaningful, if_true, List.nil_append, htarget]
  by_cases hknown : first.referencedTable ∈ s.modelNames
  · rw [if_pos hknown, List.filter_cons_of_neg fun h => hstrays.1 h hknown]
    exact .nil
  · rw [if_neg hknown, List.filter_cons_of_pos (hstrays.2 hknown)]
    exact .cons ⟨f, hf, hjoins, first, hfirst, rfl⟩ .nil

theorem forall₂_flatMap_relationIssuesOf (hbare : t.BareNames) {constraints : List String}
    {fields : List Field} (h : List.Forall₂ (fun constraint f =>
      f ∈ (Model.ofTable t).fields ∧ t.Joins constraint f) constraints fields) :
    List.Forall₂ ReportsStray ((constraints.filter (t.straysFrom s.modelNames)).map (t, ·))
      (fields.flatMap (s.relationIssuesOf (Model.ofTable t))) := by
  induction h with
  | nil => exact .nil
  | @cons constraint f constraints fields hfirst hrest ih =>
    rw [← List.singleton_append, List.filter_append, List.map_append, List.flatMap_cons]
    exact List.rel_append (forall₂_relationIssuesOf hbare hfirst.1 hfirst.2) ih

/-- The constraints of a table and the fields of its model that were built for them. -/
theorem forall₂_joins_ofTable (h : t.Sound) : List.Forall₂ (fun constraint f =>
    f ∈ (Model.ofTable t).fields ∧ t.Joins constraint f) t.constraints
    (t.relationFields (t.columns.map (·.field))) := by
  have hfields := t.forall₂_relationFieldsFrom t.groupedForeignKeys (t.columns.map (·.field))
  rw [Table.groupedForeignKeys_eq, List.forall₂_map_left_iff, ← t.groupedForeignKeys_eq] at hfields
  have hmem : List.Forall₂ (fun constraint f => f ∈ t.relationFields (t.columns.map (·.field)) ∧
      constraint ∈ t.constraints ∧ ∃ taken, f = t.relationField taken constraint (t.keysOf constraint))
      t.constraints (t.relationFields (t.columns.map (·.field))) :=
    ((List.forall₂_and_left _ _).2 ⟨fun _ hf => hf,
      ((List.forall₂_and_left _ _).2 ⟨fun _ hc => hc, hfields⟩).flip⟩).flip
  refine hmem.imp ?_
  rintro constraint f ⟨hf, hc, taken, rfl⟩
  rw [Table.fields_ofTable]
  exact ⟨List.mem_append_right _ hf, Table.joins_relationField h.valid.2.2.1 hc taken⟩

/-- What is found about the relations of a table's model is which constraints of the table stray. -/
theorem forall₂_relationIssues_ofTable (hsound : t.Sound) (hbare : t.BareNames) :
    List.Forall₂ ReportsStray ((t.constraints.filter (t.straysFrom s.modelNames)).map (t, ·))
      ((Model.ofTable t).fields.flatMap (s.relationIssuesOf (Model.ofTable t))) := by
  have hcolumns : (t.columns.map t.columnField).flatMap (s.relationIssuesOf (Model.ofTable t)) = [] := by
    refine List.flatMap_eq_nil_iff.2 fun f hf => ?_
    obtain ⟨c, -, rfl⟩ := List.mem_map.1 hf
    have hnone : (t.columnField c).relation = none := by
      unfold Table.columnField
      split <;> rfl
    rw [relationIssuesOf, hnone]
  have hrelations := forall₂_flatMap_relationIssuesOf (s := s) hbare (forall₂_joins_ofTable hsound)
  rwa [Table.fields_ofTable, List.flatMap_append, hcolumns, List.nil_append]

/-! ### What is left to find -/

section Tables

variable {tables : List Table} (generator : Generator) (datasource : Datasource)

theorem modelNames_ofTables :
    (ofTables tables generator datasource).modelNames = tables.map (·.name) := List.map_map ..

theorem modelNameIssues_ofTables (h : (tables.map (·.name)).Nodup) :
    (ofTables tables generator datasource).modelNameIssues = [] := by
  have hnone : repeats [] (tables.map (·.name)) = [] := by
    rw [← List.length_eq_zero_iff, length_repeats, List.toFinset_card_of_nodup h, Nat.sub_self]
  rw [modelNameIssues, modelNames_ofTables, hnone]
  rfl

theorem emptyModelIssues_ofTables (h : ∀ t ∈ tables, t.columns ≠ []) :
    (ofTables tables generator datasource).emptyModelIssues = [] := by
  have hnone : ((ofTables tables generator datasource).models.filter (·.fields.isEmpty)) = [] := by
    refine List.filter_eq_nil_iff.2 fun m hm => ?_
    obtain ⟨t, ht, rfl⟩ := List.mem_map.1 hm
    simp [Table.fields_ofTable, h t ht]
  rw [emptyModelIssues, hnone]
  rfl

theorem idDirectiveIssues_ofTables (hsound : ∀ t ∈ tables, t.Sound) (hbare : ∀ t ∈ tables, t.BareNames) :
    (ofTables tables generator datasource).idDirectiveIssues = [] := by
  refine List.flatMap_eq_nil_iff.2 fun m hm => List.flatMap_eq_nil_iff.2 fun d hd => ?_
  obtain ⟨t, ht, rfl⟩ := List.mem_map.1 hm
  rw [List.map_eq_nil_iff, List.filter_eq_nil_iff]
  rw [Model.directives_ofTable, List.mem_append] at hd
  rcases hd with hd | hd
  · split at hd
    next hseveral =>
      obtain rfl := List.mem_singleton.1 hd
      have hkey : ∀ name ∈ t.primaryKeyColumns, ∃ c ∈ t.columns, c.field = name := by
        intro name hname
        obtain ⟨c, hc, rfl⟩ := List.mem_map.1 hname
        exact ⟨c, List.mem_of_mem_filter hc, rfl⟩
      rw [idNames_idDirective (List.ne_nil_of_length_pos (by omega)) fun name hname => ?_]
      · intro name hname
        obtain ⟨c, hc, rfl⟩ := hkey name hname
        have hfield : c.field ∈ (Model.ofTable t).fields.map (·.name) := by
          rw [Table.fields_ofTable, List.map_append, List.mem_append]
          exact .inl (List.mem_map.2 ⟨_, List.mem_map_of_mem hc, t.name_columnField c⟩)
        simpa using hfield
      · obtain ⟨c, hc, rfl⟩ := hkey name hname
        exact ⟨((hsound t ht).valid.2.2.2 c hc).1, (hbare t ht).columns c hc⟩
    next => exact absurd hd List.not_mem_nil
  · obtain ⟨k, hk, rfl⟩ := List.mem_map.1 hd
    obtain ⟨hname, hcolumns⟩ := (hbare t ht).unique k (List.mem_of_mem_filter hk)
    rw [idNames_uniqueDirective hname hcolumns]
    exact fun _ h => absurd h List.not_mem_nil

theorem forall₂_relationIssues_ofTables (hsound : ∀ t ∈ tables, t.Sound)
    (hbare : ∀ t ∈ tables, t.BareNames) :
    List.Forall₂ ReportsStray (Table.strays tables)
      (ofTables tables generator datasource).relationIssues := by
  have heach : List.Forall₂ (fun t m => List.Forall₂ ReportsStray
      ((t.constraints.filter (t.straysFrom (tables.map (·.name)))).map (t, ·))
      (m.fields.flatMap ((ofTables tables generator datasource).relationIssuesOf m))) tables
      (tables.map Model.ofTable) := by
    rw [List.forall₂_map_right_iff, List.forall₂_same]
    intro t ht
    rw [← modelNames_ofTables generator datasource]
    exact forall₂_relationIssues_ofTable (hsound t ht) (hbare t ht)
  exact List.rel_flatMap heach fun _ _ h => h

/-- The checks find nothing but names of fields that come again and constraints of the tables that lead to
none of them, each of these once and in the order of the tables and of their constraints. -/
structure OnlyStrays (tables : List Table) (s : Schema) : Prop where
  codes : ∀ issue ∈ s.issues,
    issue.code = "DUPLICATE_FIELD_NAME" ∨ issue.code = "UNKNOWN_RELATION_TARGET"
  strays : List.Forall₂ ReportsStray (Table.strays tables)
    (s.issues.filter (·.code = "UNKNOWN_RELATION_TARGET"))

theorem code_of_mem_fieldNameIssues {s : Schema} {issue : Issue} (h : issue ∈ s.fieldNameIssues) :
    issue.code = "DUPLICATE_FIELD_NAME" := by
  obtain ⟨m, -, hissue⟩ := List.mem_flatMap.1 h
  obtain ⟨name, -, rfl⟩ := List.mem_map.1 hissue
  rfl

theorem code_of_forall₂_reportsStray {strays : List (Table × String)} {issues : List Issue}
    (h : List.Forall₂ ReportsStray strays issues) :
    ∀ issue ∈ issues, issue.code = "UNKNOWN_RELATION_TARGET" := by
  intro issue hissue
  obtain ⟨i, hi, rfl⟩ := List.getElem_of_mem hissue
  obtain ⟨f, -, -, first, -, hreport⟩ := h.flip.get hi (h.length_eq ▸ hi)
  rw [List.get_eq_getElem] at hreport
  rw [hreport]
  rfl

/-- The models of checked tables with distinct, bare names are made without a fault, and in the schema that they
form, whatever its generator and its datasource, the checks find nothing but names of fields that come again
and constraints that lead to none of the tables. -/
theorem onlyStrays_ofTables (hsound : ∀ t ∈ tables, t.Sound) (hbare : ∀ t ∈ tables, t.BareNames)
    (hnames : (tables.map (·.name)).Nodup) :
    tables.mapM Model.make = .ok (ofTables tables generator datasource).models ∧
      OnlyStrays tables (ofTables tables generator datasource) := by
  have hmade : tables.mapM Model.make = .ok (ofTables tables generator datasource).models := by
    show tables.mapM Model.make = .ok (tables.map Model.ofTable)
    rw [mapM_eq_ok_iff, List.forall₂_map_right_iff, List.forall₂_same]
    exact fun t ht => (hsound t ht).makeModel
  have hissues : (ofTables tables generator datasource).issues =
      (ofTables tables generator datasource).fieldNameIssues ++
        (ofTables tables generator datasource).relationIssues := by
    simp only [issues, checks, List.flatMap_cons, List.flatMap_nil, modelNameIssues_ofTables generator
      datasource hnames, emptyModelIssues_ofTables generator datasource fun t ht => (hsound t ht).valid.2.1,
      idDirectiveIssues_ofTables generator datasource hsound hbare, List.nil_append, List.append_nil]
  have hstrays := forall₂_relationIssues_ofTables generator datasource hsound hbare
  have hcodes := code_of_forall₂_reportsStray hstrays
  refine ⟨hmade, ⟨fun issue hissue => ?_, ?_⟩⟩
  · rw [hissues, List.mem_append] at hissue
    exact hissue.imp code_of_mem_fieldNameIssues (hcodes issue)
  · have hfields : (ofTables tables generator datasource).fieldNameIssues.filter
        (·.code = "UNKNOWN_RELATION_TARGET") = [] := by
      refine List.filter_eq_nil_iff.2 fun issue hissue => ?_
      rw [code_of_mem_fieldNameIssues hissue]
      decide
    rw [hissues, List.filter_append, hfields, List.nil_append,
      List.filter_eq_self.2 fun issue hissue => by simpa using hcodes issue hissue]
    exact hstrays

/-- Halls, and stalls with a key of two columns that belong to a hall and to a person, of whom there is no
table. -/
def fairTables : List Table :=
  [{ name := "hall"
     columns := [{ field := "id", sqlType := "int", nullable := false, keyFlag := .primary }] },
    { name := "stall"
      columns := [{ field := "hall", sqlType := "int", nullable := false, keyFlag := .primary },
        { field := "number", sqlType := "int", nullable := false, keyFlag := .primary },
        { field := "owner", sqlType := "int" }]
      keys := [.unique ⟨"once", ["hall", "owner"]⟩, .foreign ⟨"fk_owner", "owner", "person", "id"⟩,
        .foreign ⟨"fk_hall", "hall", "hall", "id"⟩] }]

theorem onlyStrays_fair : (∀ t ∈ fairTables, t.Sound ∧ t.BareNames) ∧
    (fairTables.map (·.name)).Nodup ∧
    (Table.strays fairTables).map (fun stray => (stray.1.name, stray.2)) = [("stall", "fk_owner")] ∧
    fairTables.mapM Model.make = .ok (ofTables fairTables).models ∧
    OnlyStrays fairTables (ofTables fairTables) := by
  have hvalid : ∀ t ∈ fairTables, t.Valid := by
    unfold Table.Valid
    decide
  have hforeign : ∀ t ∈ fairTables, ∀ k ∈ t.foreignKeys, k.Filled := by decide
  have hbare : ∀ t ∈ fairTables, t.BareNames := by decide
  have hsound : ∀ t ∈ fairTables, t.Sound := fun t ht => ⟨hvalid t ht, hforeign t ht⟩
  have hnames : (fairTables.map (·.name)).Nodup := by decide
  exact ⟨fun t ht => ⟨hsound t ht, hbare t ht⟩, hnames, by decide,
    onlyStrays_ofTables {} {} hsound hbare hnames⟩

end Tables

end Schema

end CatalogSync
