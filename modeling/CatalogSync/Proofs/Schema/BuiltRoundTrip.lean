import CatalogSync.Proofs.Schema.Build
import CatalogSync.Proofs.Schema.RoundTrip
import Mathlib.Data.List.Nodup

/-!
The round trip of a built schema. The names, the types and the relations that are built of plain
names always come back, and so do the marks of keys. What comes back only in part is what the
catalog writes itself: a default literal and a type text are put into a line as they stand.
-/

namespace CatalogSync

open Text (isBlank joined startsWith NoBlank NoBreak NoTrailingBlank)

theorem toList_commaList (names : List String) :
    (commaList names).toList = joined [',', ' '] (names.map (·.toList)) :=
  toList_intercalate ", " names

theorem noBlank_or_space_of_commaList {names : List String} (h : ∀ name ∈ names, PlainName name) :
    ∀ c ∈ joined [',', ' '] (names.map (·.toList)), c ∉ ['@', ']'] ∧ Text.isLineBreak c = false := by
  refine Text.forall_mem_joined (by decide) fun piece hpiece c hc => ?_
  obtain ⟨name, hname, rfl⟩ := List.mem_map.1 hpiece
  refine ⟨fun hmem => ?_, (h name hname).noBlank.noBreak c hc⟩
  simp only [List.mem_cons, List.not_mem_nil, or_false] at hmem
  rcases hmem with rfl | rfl
  · exact (h name hname).not_mem (by decide) hc
  · exact (h name hname).not_mem (by decide) hc

theorem idNames?_cons_of_ne {c : Char} (h : c ≠ '@') (s : List Char) :
    idNames? (c :: s) = idNames? s := by
  have hstart : Text.after? "@@id([".toList (c :: s) = none :=
    Text.after?_eq_none_iff.2 (Text.startsWith_cons_of_ne "@id([".toList s h.symm)
  rw [idNames?, idNamesHere?, hstart]
  rfl

theorem idNames?_of_not_mem {s : List Char} (h : '@' ∉ s) : idNames? s = none := by
  induction s with
  | nil => rfl
  | cons c s ih =>
    obtain ⟨hc, hs⟩ : '@' ≠ c ∧ '@' ∉ s := by simpa using h
    rw [idNames?_cons_of_ne hc.symm, ih hs]

theorem idNames?_append {names : List Char} (h : ']' ∉ names) :
    idNames? ("@@id([".toList ++ (names ++ "])".toList)) = some names := by
  have hcut : Text.cutAt? ']' (names ++ "])".toList) = some (names, [')']) := Text.cutAt?_append h _
  have hhere : idNamesHere? ("@@id([".toList ++ (names ++ "])".toList)) = some names := by
    rw [idNamesHere?, Text.after?_append, Option.bind_eq_bind, Option.bind_some, hcut]
    rfl
  have hcons : "@@id([".toList ++ (names ++ "])".toList) =
      '@' :: ("@id([".toList ++ (names ++ "])".toList)) := rfl
  rw [hcons] at hhere ⊢
  rw [idNames?, hhere]
  rfl

theorem idNames?_unique {s : List Char} (h : '@' ∉ s) :
    idNames? ("@@unique([".toList ++ s) = none := by
  have hrest : '@' ∉ "unique([".toList ++ s := by
    have hword : '@' ∉ "unique([".toList := by decide
    rw [List.mem_append, not_or]
    exact ⟨hword, h⟩
  have hcons : "@@unique([".toList ++ s = '@' :: '@' :: ("unique([".toList ++ s) := rfl
  have hfirst : idNamesHere? ('@' :: '@' :: ("unique([".toList ++ s)) = none := rfl
  have hsecond : idNamesHere? ('@' :: ("unique([".toList ++ s)) = none := rfl
  rw [hcons, idNames?, hfirst, idNames?, hsecond, idNames?_of_not_mem hrest]
  rfl

namespace Model

theorem toList_idDirective (names : List String) : (idDirective names).toList =
    [' ', ' '] ++ ("@@id([".toList ++ (joined [',', ' '] (names.map (·.toList)) ++ "])".toList)) := by
  have htext : idDirective names = "  " ++ "@@id([" ++ commaList names ++ "])" := rfl
  rw [htext]
  simp only [String.toList_append, toList_commaList, List.append_assoc]
  rfl

theorem toList_uniqueDirective (k : UniqueComposite) : (uniqueDirective k).toList =
    [' ', ' '] ++ ("@@unique([".toList ++ (joined [',', ' '] (k.columns.map (·.toList))
      ++ ("], map: \"".toList ++ (k.constraintName.toList ++ "\")".toList)))) := by
  have htext : uniqueDirective k =
      "  " ++ "@@unique([" ++ commaList k.columns ++ "], map: \"" ++ k.constraintName ++ "\")" := rfl
  rw [htext]
  simp only [String.toList_append, toList_commaList, List.append_assoc]
  rfl

/-- The directive of a key is a line of its own, and gives the names of the key. -/
theorem idDirective_fits {names : List String} (h : ∀ name ∈ names, PlainName name) :
    NoBreak (idDirective names).toList ∧ DirectiveFits (idDirective names).toList ∧
      ((idNames? (idDirective names).toList).map Relation.parseList).getD [] = names := by
  have hmarks : NoBreak [' ', ' '] ∧ NoBreak "@@id([".toList ∧ NoBreak "])".toList := by decide
  have hinner := noBlank_or_space_of_commaList h
  refine ⟨?_, ⟨?_, ?_⟩, ?_⟩
  · rw [toList_idDirective]
    exact hmarks.1.append (hmarks.2.1.append
      (NoBreak.append (fun c hc => (hinner c hc).2) hmarks.2.2))
  · have hend : NoTrailingBlank "])".toList := by decide
    rw [toList_idDirective, ← List.append_assoc, ← List.append_assoc]
    exact hend.append (by simp)
  · rw [toList_idDirective, Text.trimLeft, Text.dropWhile_append_of_all (by decide)]
    rfl
  · have hhere : idNames? (idDirective names).toList =
        some (joined [',', ' '] (names.map (·.toList))) := by
      rw [toList_idDirective, List.cons_append, List.cons_append, List.nil_append,
        idNames?_cons_of_ne (by decide), idNames?_cons_of_ne (by decide)]
      exact idNames?_append fun hmem => (hinner _ hmem).1 (by simp)
    rw [hhere]
    exact Relation.parseList_joined fun name hn => (h name hn).itemFits.plainItem

/-- The directive of a unique constraint is a line of its own, and gives no name to the key. -/
theorem uniqueDirective_fits {k : UniqueComposite} (hconstraint : PlainName k.constraintName)
    (h : ∀ column ∈ k.columns, PlainName column) :
    NoBreak (uniqueDirective k).toList ∧ DirectiveFits (uniqueDirective k).toList ∧
      ((idNames? (uniqueDirective k).toList).map Relation.parseList).getD [] = [] := by
  have hmarks : NoBreak [' ', ' '] ∧ NoBreak "@@unique([".toList ∧ NoBreak "], map: \"".toList ∧
      NoBreak "\")".toList := by decide
  have hinner := noBlank_or_space_of_commaList h
  refine ⟨?_, ⟨?_, ?_⟩, ?_⟩
  · rw [toList_uniqueDirective]
    exact hmarks.1.append (hmarks.2.1.append (NoBreak.append (fun c hc => (hinner c hc).2)
      (hmarks.2.2.1.append (hconstraint.noBlank.noBreak.append hmarks.2.2.2))))
  · have hend : NoTrailingBlank "\")".toList := by decide
    rw [toList_uniqueDirective]
    simp only [← List.append_assoc]
    exact hend.append (by simp)
  · rw [toList_uniqueDirective, Text.trimLeft, Text.dropWhile_append_of_all (by decide)]
    rfl
  · have hsign : '@' ∉ joined [',', ' '] (k.columns.map (·.toList)) ++ ("], map: \"".toList
        ++ (k.constraintName.toList ++ "\")".toList)) := by
      have hcolumns : '@' ∉ joined [',', ' '] (k.columns.map (·.toList)) :=
        fun hmem => (hinner _ hmem).1 (by simp)
      have hname : '@' ∉ k.constraintName.toList := hconstraint.not_mem (by decide)
      have hmap : '@' ∉ "], map: \"".toList ∧ '@' ∉ "\")".toList := by decide
      simp only [List.mem_append, not_or]
      exact ⟨hcolumns, hmap.1, hname, hmap.2⟩
    have hnone : idNames? (uniqueDirective k).toList = none := by
      rw [toList_uniqueDirective, List.cons_append, List.cons_append, List.nil_append,
        idNames?_cons_of_ne (by decide), idNames?_cons_of_ne (by decide)]
      exact idNames?_unique hsign
    rw [hnone]
    rfl

/-! ### The fields of a model -/

/-- A field of the model of a table comes of a column or of a constraint that refers to another
table, and may have lost its mark for unique values to the key. -/
theorem exists_of_mem_fields {t : Table} {f : Field} (h : f ∈ (ofTable t).fields) :
    ∃ g, (f = g ∨ f = { g with unique := none }) ∧ ((∃ c ∈ t.columns, g = Field.ofColumn c) ∨
      ∃ taken, ∃ group ∈ t.groupedForeignKeys, g = t.relationField taken group.1 group.2) := by
  rw [Table.fields_ofTable] at h
  rcases List.mem_append.1 h with h | h
  · obtain ⟨c, hc, rfl⟩ := List.mem_map.1 h
    refine ⟨Field.ofColumn c, ?_, .inl ⟨c, hc, rfl⟩⟩
    unfold Table.columnField
    split
    · exact .inr rfl
    · exact .inl rfl
  · exact ⟨f, .inl rfl, .inr (Table.exists_of_mem_relationFields h)⟩

theorem built_of_mem_fields {t : Table} (ht : t.PlainNames) {f : Field}
    (h : f ∈ (ofTable t).fields) : f.Built := by
  obtain ⟨g, hf, hg⟩ := exists_of_mem_fields h
  have hbuilt : g.Built := by
    rcases hg with ⟨c, hc, rfl⟩ | ⟨taken, group, hgroup, rfl⟩
    · exact Field.built_ofColumn (ht.columns c hc)
    · exact (ht.group hgroup).built t taken
  rcases hf with rfl | rfl
  · exact hbuilt
  · exact hbuilt.withoutUnique

/-- The fields of columns stand in front; they have the names of the columns, and they alone are
marked as key. -/
theorem exists_fields_eq_append (t : Table) : ∃ cs rs, (ofTable t).fields = cs ++ rs ∧
    cs.map (fun f => (f.name, f.isId)) = t.columns.map (fun c => (c.field, c.isPrimary)) ∧
      ∀ f ∈ rs, f.isId = false := by
  refine ⟨_, _, t.fields_ofTable, ?_, fun f hf => ?_⟩
  · rw [List.map_map]
    refine List.map_congr_left fun c _ => ?_
    simp only [Function.comp_apply, Table.columnField]
    split <;> rfl
  · obtain ⟨taken, g, -, rfl⟩ := Table.exists_of_mem_relationFields hf
    rfl

theorem directives_ofTable (t : Table) : (ofTable t).directives =
    (if 1 < t.primaryKeyColumns.length then [idDirective t.primaryKeyColumns] else [])
      ++ (t.uniqueComposites.filter (·.isComposite)).map uniqueDirective := rfl

theorem plainName_of_mem_primaryKeyColumns {t : Table} (ht : t.PlainNames) :
    ∀ name ∈ t.primaryKeyColumns, PlainName name := by
  intro name hname
  obtain ⟨c, hc, rfl⟩ := List.mem_map.1 hname
  exact ht.columns c (List.mem_of_mem_filter hc)

theorem directives_fit {t : Table} (ht : t.PlainNames) :
    ∀ d ∈ (ofTable t).directives, NoBreak d.toList ∧ DirectiveFits d.toList := by
  intro d hd
  rw [directives_ofTable, List.mem_append] at hd
  rcases hd with hd | hd
  · split at hd
    · obtain rfl := List.mem_singleton.1 hd
      obtain ⟨hbreak, hfits, -⟩ := idDirective_fits (plainName_of_mem_primaryKeyColumns ht)
      exact ⟨hbreak, hfits⟩
    · exact absurd hd List.not_mem_nil
  · obtain ⟨k, hk, rfl⟩ := List.mem_map.1 hd
    obtain ⟨hconstraint, hcolumns⟩ := ht.unique k (List.mem_of_mem_filter hk)
    obtain ⟨hbreak, hfits, -⟩ := uniqueDirective_fits hconstraint hcolumns
    exact ⟨hbreak, hfits⟩

/-- The directives name the columns of a key of several columns, and nothing else. -/
theorem directiveIds_ofTable {t : Table} (ht : t.PlainNames) : (ofTable t).directiveIds =
    if 1 < t.primaryKeyColumns.length then t.primaryKeyColumns else [] := by
  have hunique : ((t.uniqueComposites.filter (·.isComposite)).map uniqueDirective).flatMap
      (fun d => ((idNames? d.toList).map Relation.parseList).getD []) = [] := by
    refine List.flatMap_eq_nil_iff.2 fun d hd => ?_
    obtain ⟨k, hk, rfl⟩ := List.mem_map.1 hd
    obtain ⟨hconstraint, hcolumns⟩ := ht.unique k (List.mem_of_mem_filter hk)
    exact (uniqueDirective_fits hconstraint hcolumns).2.2
  rw [directiveIds, directives_ofTable, List.flatMap_append, hunique, List.append_nil]
  split
  · rw [List.flatMap_cons, List.flatMap_nil, List.append_nil]
    exact (idDirective_fits (plainName_of_mem_primaryKeyColumns ht)).2.2
  · rfl

/-- A place in two lists, one behind the other, is in the first one or behind all of it. -/
theorem front_or_behind {α : Type} {front back l r : List α} {a : α}
    (h : front ++ back = l ++ a :: r) :
    (∃ r', front = l ++ a :: r') ∨ a ∈ back ∧ ∀ b ∈ front, b ∈ l := by
  rcases List.append_eq_append_iff.1 h with ⟨tail, rfl, hback⟩ | ⟨tail, hfront, hback⟩
  · exact .inr ⟨by rw [hback]; simp, fun b hb => List.mem_append_left _ hb⟩
  · cases tail with
    | nil =>
      rw [List.append_nil] at hfront
      rw [List.nil_append] at hback
      exact .inr ⟨by rw [← hback]; exact List.mem_cons_self, fun b hb => hfront ▸ hb⟩
    | cons b tail =>
      obtain ⟨rfl, -⟩ := List.cons.inj hback
      exact .inl ⟨tail, hfront⟩

/-- Marks of keys agree where the fields that may have them stand in front under different names,
and the directives name those marked just where there are several. -/
theorem keysAgree_of_append {m : Model} {cs rs : List Field} (hfields : m.fields = cs ++ rs)
    (hnodup : (cs.map (·.name)).Nodup) (hrs : ∀ f ∈ rs, f.isId = false)
    (hids : m.directiveIds =
      if 1 < (cs.filter (·.isId)).length then (cs.filter (·.isId)).map (·.name) else []) :
    m.KeysAgree := by
  have hcount : m.idFieldCount = (cs.filter (·.isId)).length := by
    have hnone : rs.filter (·.isId) = [] :=
      List.filter_eq_nil_iff.2 fun f hf => by simp [hrs f hf]
    rw [idFieldCount, hfields, List.filter_append, hnone, List.append_nil]
  intro l f r hsplit
  rw [hfields] at hsplit
  rw [hcount, hids]
  -- a field behind the front is no key, and all names of the front stand before it
  have hwhere : (∃ r', cs = l ++ f :: r') ∨ f.isId = false ∧ ∀ g ∈ cs, g ∈ l :=
    (front_or_behind hsplit).imp_right fun hbehind => ⟨hrs f hbehind.1, hbehind.2⟩
  have hkey : f.isId = true → f ∈ cs.filter (·.isId) := by
    intro hid
    rcases hwhere with ⟨r', rfl⟩ | ⟨hnone, -⟩
    · exact List.mem_filter.2 ⟨by simp, hid⟩
    · rw [hid] at hnone
      cases hnone
  split
  next hseveral =>
    have hone : (cs.filter (·.isId)).length ≠ 1 := by omega
    simp only [hone, and_false, false_or]
    constructor
    · intro hid
      refine ⟨List.mem_map.2 ⟨f, hkey hid, rfl⟩, fun hname => ?_⟩
      rcases hwhere with ⟨r', rfl⟩ | ⟨hnone, -⟩
      · rw [List.map_append, List.map_cons, List.nodup_append] at hnodup
        exact hnodup.2.2 _ hname _ List.mem_cons_self rfl
      · rw [hid] at hnone
        cases hnone
    · rintro ⟨hname, hfirst⟩
      obtain ⟨g, hg, hgf⟩ := List.mem_map.1 hname
      obtain ⟨hg, hid⟩ := List.mem_filter.1 hg
      rcases hwhere with ⟨r', rfl⟩ | ⟨-, hall⟩
      · rwa [List.inj_on_of_nodup_map hnodup hg (by simp) hgf] at hid
      · exact absurd (List.mem_map.2 ⟨g, hall g hg, hgf⟩) hfirst
  next hfew =>
    simp only [List.not_mem_nil, false_and, or_false]
    refine ⟨fun hid => ⟨hid, ?_⟩, fun h => h.1⟩
    have := List.length_pos_of_mem (hkey hid)
    omega

theorem keysAgree_ofTable {t : Table} (hvalid : t.Valid) (ht : t.PlainNames) :
    (ofTable t).KeysAgree := by
  obtain ⟨cs, rs, hfields, hcolumns, hrs⟩ := exists_fields_eq_append t
  have hnames : cs.map (·.name) = t.columns.map (·.field) := by
    simpa [Function.comp_def] using congrArg (List.map Prod.fst) hcolumns
  have hkeys : (cs.filter (·.isId)).map (·.name) = t.primaryKeyColumns := by
    have := congrArg (fun ps => (ps.filter (·.2)).map (·.1)) hcolumns
    simpa [List.filter_map, Function.comp_def, Table.primaryKeyColumns] using this
  have hcount : (cs.filter (·.isId)).length = t.primaryKeyColumns.length := by
    rw [← hkeys, List.length_map]
  refine keysAgree_of_append hfields (hnames ▸ hvalid.2.2.1) hrs ?_
  rw [directiveIds_ofTable ht, hcount, hkeys]

/-- A built model is legible where the texts of the catalog are read back. -/
theorem legible_ofTable {t : Table} (ht : t.PlainNames)
    (hback : ∀ f ∈ (ofTable t).fields, f.ReadsBack) : (ofTable t).Legible where
  fields f hf := by
    have hbuilt := built_of_mem_fields ht hf
    exact ⟨hbuilt.columned.legible (hback f hf) fun r hr =>
        ⟨(hbuilt.relation r hr).fits, Relation.marked_render (hbuilt.relation r hr).each⟩,
      hbuilt.name.startsWith_eq_false (by decide) ['/'],
      hbuilt.name.startsWith_eq_false (by decide) ['@']⟩
  directives d hd := (directives_fit ht d hd).2

/-- A built model is framed where no default literal breaks its line. -/
theorem framed_ofTable {t : Table} (ht : t.PlainNames)
    (hbreak : ∀ f ∈ (ofTable t).fields, ∀ e ∈ f.defaultExpr, NoBreak e.toList) :
    (ofTable t).Framed := by
  have hname : (ofTable t).name = t.name := rfl
  refine framed_of_noBreak ⟨?_, ?_, ?_⟩ ?_ (fun l hl => ?_) fun d hd => (directives_fit ht d hd).2
  · exact hname ▸ ht.name.ne_nil
  · exact hname ▸ Relation.trimmed_of_noBlank ht.name.noBlank
  · exact hname ▸ ht.name.not_mem (by decide)
  · exact hname ▸ ht.name.noBlank.noBreak
  rcases mem_renderBody hl with ⟨f, hf, rfl⟩ | rfl | ⟨d, hd, rfl⟩
  · have hbuilt := built_of_mem_fields ht hf
    exact Field.noBreak_line (hbuilt.oneLine (hbreak f hf)) _ _ _
  · exact fun c hc => absurd hc List.not_mem_nil
  · exact (directives_fit ht d hd).1

end Model

namespace Schema

theorem headerFits_ofTables (tables : List Table) :
    HeaderFits (ofTables tables).generator.name (ofTables tables).generator.provider ∧
      HeaderFits (ofTables tables).datasource.name (ofTables tables).datasource.provider := by
  have hstandard : HeaderFits ({} : Generator).name ({} : Generator).provider ∧
      HeaderFits ({} : Datasource).name ({} : Datasource).provider := by decide
  exact hstandard

/-- Built models come back where the texts of the catalog do. -/
theorem parse_render_of_readsBack {tables : List Table}
    (h : ∀ t ∈ tables, t.Valid ∧ t.PlainNames)
    (hback : ∀ t ∈ tables, ∀ f ∈ (Model.ofTable t).fields, f.ReadsBack) :
    Schema.parse (ofTables tables).render = .ok (ofTables tables) := by
  obtain ⟨hgenerator, hdatasource⟩ := headerFits_ofTables tables
  refine (parse_render_eq_self_iff hgenerator hdatasource fun m hm => ?_).2 fun m hm => ?_
  · obtain ⟨t, ht, rfl⟩ := List.mem_map.1 hm
    exact Model.framed_ofTable (h t ht).2 fun f hf e he =>
      ((hback t ht f hf).default e he).singleSpaced.noBreak
  · obtain ⟨t, ht, rfl⟩ := List.mem_map.1 hm
    obtain ⟨hvalid, hplain⟩ := h t ht
    exact (Model.legible_ofTable hplain (hback t ht)).reread_eq_self_iff.2
      ⟨Model.keysAgree_ofTable hvalid hplain, rfl⟩

/-- The texts of the catalog come back where built models do. -/
theorem readsBack_of_parse_render {tables : List Table} (h : ∀ t ∈ tables, t.PlainNames)
    (hparse : Schema.parse (ofTables tables).render = .ok (ofTables tables)) :
    ∀ t ∈ tables, ∀ f ∈ (Model.ofTable t).fields, f.ReadsBack := by
  obtain ⟨hgenerator, hdatasource⟩ := headerFits_ofTables tables
  -- what was read has no broken line, whatever literals the catalog holds
  have hframed : ∀ m ∈ (ofTables tables).models, m.Framed := by
    intro m hm
    obtain ⟨t, ht, rfl⟩ := List.mem_map.1 hm
    exact Model.framed_ofTable (h t ht) fun f hf e he =>
      ((given_of_parse hparse hm hf).read.default e he).noBreak
  have hself := (parse_render_eq_self_iff hgenerator hdatasource hframed).1 hparse
  intro t ht f hf
  have hbuilt := Model.built_of_mem_fields (h t ht) hf
  have hdirectives : ∀ d ∈ (Model.ofTable t).directives, Model.DirectiveFits d.toList :=
    fun d hd => (Model.directives_fit (h t ht) d hd).2
  obtain ⟨g, hread, hfg⟩ :=
    Model.exists_of_reread hdirectives (hself _ (List.mem_map.2 ⟨t, ht, rfl⟩)) hf
  rcases hbuilt.apart with hnone | ⟨hdefault, hnative⟩
  · exact hbuilt.columned.readsBack hnone hread (by rw [hfg]) (by rw [hfg]) (by rw [hfg])
  · exact Field.readsBack_of_none hdefault hnative

/-- The schema that is built of valid tables with plain names makes the round trip exactly where
each field's default expression and native type are read back from its line. -/
theorem parse_render_ofTables_iff {tables : List Table}
    (h : ∀ t ∈ tables, t.Valid ∧ t.PlainNames) :
    Schema.parse (ofTables tables).render = .ok (ofTables tables) ↔
      ∀ t ∈ tables, ∀ f ∈ (Model.ofTable t).fields, f.ReadsBack :=
  ⟨readsBack_of_parse_render fun t ht => (h t ht).2, parse_render_of_readsBack h⟩

/-- Two tables, one with a key of two columns, a reference and a unique constraint, and defaults of
several kinds. -/
def shopTables : List Table := [
  { name := "item"
    columns := [
      { field := "id", sqlType := "int(10) unsigned", nullable := false, keyFlag := .primary
        extra := "auto_increment" },
      { field := "label", sqlType := "varchar(191)", keyFlag := .unique,
        defaultLiteral := some "plain" },
      { field := "price", sqlType := "decimal(10,2)", defaultLiteral := some "0.00" }] },
  { name := "sale"
    columns := [
      { field := "day", sqlType := "datetime(3)", nullable := false, keyFlag := .primary,
        defaultLiteral := some "CURRENT_TIMESTAMP(3)" },
      { field := "item_id", sqlType := "int", nullable := false, keyFlag := .primary },
      { field := "open", sqlType := "TINYINT(1)", nullable := false,
        defaultLiteral := some "1" }]
    keys := [.unique ⟨"sale_day_open", ["day", "open"]⟩,
      .foreign ⟨"sale_item", "item_id", "item", "id"⟩] }]

theorem parse_render_shopTables : (∀ t ∈ shopTables, t.Valid ∧ t.PlainNames) ∧
    Schema.parse (ofTables shopTables).render = .ok (ofTables shopTables) := by
  have hvalid : ∀ t ∈ shopTables, t.Valid ∧ t.PlainNames := by
    unfold Table.Valid
    decide +kernel
  have hwritten : ∀ t ∈ shopTables, ∀ f ∈ (Model.ofTable t).fields, f.WellFormed := by
    decide +kernel
  exact ⟨hvalid, (parse_render_ofTables_iff hvalid).2 fun t ht f hf => (hwritten t ht f hf).readsBack⟩

/-- A literal of two words that stand two spaces apart. -/
def spacedTable : Table where
  name := "note"
  columns := [
    { field := "body", sqlType := "varchar(20)", defaultLiteral := some "two  words" }]

/-- One column is enough for a schema that does not come back: the spaces of its default literal are
read as one. -/
theorem parse_render_spacedTable_ne : (spacedTable.Valid ∧ spacedTable.PlainNames ∧
      ((Model.ofTable spacedTable).fields.map (·.name)).Nodup) ∧
    Schema.parse (ofTables [spacedTable]).render ≠ .ok (ofTables [spacedTable]) := by
  have hplain : spacedTable.PlainNames := by decide +kernel
  refine ⟨⟨?_, hplain, by decide +kernel⟩, fun hparse => ?_⟩
  · unfold Table.Valid
    decide +kernel
  · have hback := readsBack_of_parse_render (by simpa using hplain) hparse spacedTable (by simp)
    have hspaced : ¬∀ f ∈ (Model.ofTable spacedTable).fields, ∀ e ∈ f.defaultExpr,
        Text.SingleSpaced e.toList := by decide +kernel
    exact hspaced fun f hf e he => ((hback f hf).default e he).singleSpaced

end Schema

end CatalogSync
