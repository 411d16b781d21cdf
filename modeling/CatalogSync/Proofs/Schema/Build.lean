import CatalogSync.Proofs.Catalog.PlainName
import CatalogSync.Proofs.Schema.BuiltFields
import CatalogSync.Proofs.Schema.ReadBack

/-!
The fields of catalog tables with plain names. Each field comes of a column or of a constraint that
refers to another table; either way its name and its type are words of their own in its line, and
its relation is read back from its attribute.
-/

namespace CatalogSync

open Text (startsWith NoBlank)
open UniqueFlag (marked)

/-- A table whose names are all plain: its own, those of its columns, and those in its keys. -/
@[mk_iff]
structure Table.PlainNames (t : Table) : Prop where
  name : PlainName t.name
  columns : ∀ c ∈ t.columns, PlainName c.field
  foreign : ∀ k ∈ t.foreignKeys, PlainName k.constraintName ∧ PlainName k.column ∧
    PlainName k.referencedTable ∧ PlainName k.referencedColumn
  unique : ∀ k ∈ t.uniqueComposites,
    PlainName k.constraintName ∧ ∀ column ∈ k.columns, PlainName column

instance (t : Table) : Decidable t.PlainNames := decidable_of_iff' _ (Table.plainNames_iff t)

namespace PlainName

variable {s : String}

theorem itemFits (h : PlainName s) : Relation.ItemFits s := ⟨h.ne_nil, h.noBlank, h.noBracket⟩

theorem unmarked (h : PlainName s) : marked false s.toList = false :=
  UniqueFlag.marked_of_not_mem (h.not_mem (by decide)) _

end PlainName

namespace Relation

/-- A relation of plain names. -/
structure Plain (r : Relation) : Prop where
  fields : ∀ names ∈ r.fields, ∀ item ∈ names, PlainName item
  references : ∀ names ∈ r.references, ∀ item ∈ names, PlainName item
  mapName : ∀ name ∈ r.mapName, PlainName name
  actions : r.onDelete = none ∧ r.onUpdate = none

theorem Plain.fits {r : Relation} (h : r.Plain) : r.Fits where
  fields names hn item hi := (h.fields names hn item hi).itemFits
  references names hn item hi := (h.references names hn item hi).itemFits
  mapName name hn :=
    ⟨(h.mapName name hn).noBlank.singleSpaced, (h.mapName name hn).noBracket,
      Text.unseparated_of_not_mem_space ((h.mapName name hn).not_mem (by decide))⟩
  onDelete action ha := by
    rw [h.actions.1] at ha
    cases ha
  onUpdate action ha := by
    rw [h.actions.2] at ha
    cases ha

theorem Plain.each {r : Relation} (h : r.Plain) : r.Each fun c => c ≠ '@' where
  fields names hn item hi c hc hsign := (h.fields names hn item hi).not_mem rfl (hsign ▸ hc)
  references names hn item hi c hc hsign :=
    (h.references names hn item hi).not_mem rfl (hsign ▸ hc)
  mapName name hn c hc hsign := (h.mapName name hn).not_mem rfl (hsign ▸ hc)
  onDelete action ha := by
    rw [h.actions.1] at ha
    cases ha
  onUpdate action ha := by
    rw [h.actions.2] at ha
    cases ha

end Relation

namespace Field

theorem plainName_baseFieldType (sqlType : String) : PlainName (TypeRule.baseFieldType sqlType) := by
  refine TypeRule.baseFieldType_cases (fun r hr => ?_) ?_ sqlType
  · have hall : ∀ r ∈ TypeRule.fieldRules, PlainName r.fieldType := by decide
    exact hall r hr
  · decide

/-- A field with a plain name and a plain type, which may be marked as optional, keeps to the two
columns of its line. -/
theorem columned_of_plainName {f : Field} {base : String} (nullable : Bool)
    (hname : PlainName f.name) (hbase : PlainName base)
    (htype : f.type = base ++ (if nullable then TypeRule.optionalMarker else ""))
    (hkinds : f.isArray = false ∧ f.isRequired = !nullable)
    (hquote : ∀ u ∈ f.unique, u.mapName = none)
    (hnative : ∀ t ∈ f.nativeType, NoBlank t.toList) : f.Columned := by
  have htext : f.type.toList = base.toList ++ (if nullable then ['?'] else []) := by
    rw [htype, String.toList_append]
    cases nullable <;> rfl
  have hmarker : NoBlank (if nullable then ['?'] else []) := by
    cases nullable <;> decide
  have hsign : '@' ∉ f.type.toList := by
    have := hbase.not_mem (c := '@') (by decide)
    rw [htext]
    cases nullable <;> simp [this]
  have hbracket : '[' ∉ f.type.toList := by
    have := hbase.not_mem (c := '[') (by decide)
    rw [htext]
    cases nullable <;> simp [this]
  have hmark : '?' ∈ f.type.toList ↔ nullable = true := by
    have := hbase.not_mem (c := '?') (by decide)
    rw [htext]
    cases nullable <;> simp [this]
  refine ⟨⟨hname.ne_nil, hname.noBlank⟩, ⟨?_, ?_⟩, ⟨hname.unmarked, ?_⟩, ?_, ?_, ?_, hnative⟩
  · rw [htext]
    exact List.append_ne_nil_of_left_ne_nil hbase.ne_nil _
  · rw [htext]
    exact hbase.noBlank.append hmarker
  · exact UniqueFlag.marked_of_not_mem hsign _
  · have harray : TypeRule.arrayMarker.toList = ['[', ']'] := rfl
    rw [hkinds.1, harray]
    cases hc : Text.contains ['[', ']'] f.type.toList with
    | false => rfl
    | true => exact absurd (Text.mem_of_contains_cons hc) hbracket
  · have hoptional : TypeRule.optionalMarker.toList = ['?'] := rfl
    rw [hkinds.2, hoptional, Bool.not_inj_iff, Bool.eq_iff_iff, Text.contains_singleton, hmark]
  · intro u hu name hn
    rw [hquote u hu] at hn
    cases hn

/-- A field as it is built of plain names. -/
structure Built (f : Field) : Prop where
  name : PlainName f.name
  columned : f.Columned
  unnamed : ∀ u ∈ f.unique, u.mapName = none
  relation : ∀ r ∈ f.relation, r.Plain
  apart : f.relation = none ∨ f.defaultExpr = none ∧ f.nativeType = none

/-- The field of a column with a plain name. -/
theorem built_ofColumn {c : Column} (h : PlainName c.field) : (ofColumn c).Built := by
  have hunnamed : ∀ u ∈ (ofColumn c).unique, u.mapName = none := by
    intro u hu
    have hunique : (ofColumn c).unique = if c.keyFlag.isUnique then some {} else none := rfl
    rw [hunique] at hu
    split at hu
    · obtain rfl := Option.some.inj hu
      rfl
    · cases hu
  have hcolumned : (ofColumn c).Columned :=
    columned_of_plainName c.nullable h (plainName_baseFieldType c.sqlType) rfl ⟨rfl, rfl⟩ hunnamed
      fun t ht => TypeRule.noBlank_of_nativeType? ht
  exact ⟨h, hcolumned, hunnamed, fun _ hr => (Option.not_mem_none _ hr).elim, Or.inl rfl⟩

theorem Built.oneLine {f : Field} (h : f.Built)
    (hbreak : ∀ e ∈ f.defaultExpr, Text.NoBreak e.toList) : f.OneLine where
  name := h.name.noBlank.noBreak
  type := h.columned.type.2.noBreak
  unique u hu name hn := by
    rw [h.unnamed u hu] at hn
    cases hn
  default := hbreak
  native n hn := (h.columned.native n hn).noBreak
  relation r hr := (h.relation r hr).fits.noBreak

/-- A built field may lose its mark for unique values. -/
theorem Built.withoutUnique {f : Field} (h : f.Built) : { f with unique := none }.Built where
  name := h.name
  columned :=
    { h.columned with quote := fun _ hu => (Option.not_mem_none _ hu).elim }
  unnamed _ hu := (Option.not_mem_none _ hu).elim
  relation := h.relation
  apart := h.apart

end Field

namespace Table

/-- The group of a constraint that refers to another table: it holds a key, and all its names are
plain. -/
structure PlainGroup (constraint : String) (keys : List ForeignKey) : Prop where
  constraint : PlainName constraint
  keys_ne_nil : keys ≠ []
  keys : ∀ k ∈ keys,
    PlainName k.column ∧ PlainName k.referencedTable ∧ PlainName k.referencedColumn

theorem PlainNames.group {t : Table} (h : t.PlainNames) {constraint : String}
    {keys : List ForeignKey} (hmem : (constraint, keys) ∈ t.groupedForeignKeys) :
    PlainGroup constraint keys := by
  rw [groupedForeignKeys_eq] at hmem
  obtain ⟨c, hc, hgroup⟩ := List.mem_map.1 hmem
  cases hgroup
  obtain ⟨k, hk, rfl⟩ := List.mem_map.1 (List.mem_eraseDups.1 hc)
  exact ⟨(h.foreign k hk).1, keysOf_ne_nil hc,
    fun k' hk' => (h.foreign k' (List.mem_of_mem_filter hk')).2⟩

theorem plainName_relationFieldName {referenced : String} {columns taken : List String}
    (hreferenced : PlainName referenced) (hcolumns : ∀ column ∈ columns, PlainName column) :
    PlainName (relationFieldName referenced columns taken) := by
  have hline : ∀ c ∈ "_".toList, isPlain c = true := by decide
  rw [relationFieldName]
  split
  · refine (hreferenced.append hline).append ?_
    rw [toList_intercalate]
    refine Text.forall_mem_joined hline fun piece hpiece => ?_
    obtain ⟨column, hcolumn, rfl⟩ := List.mem_map.1 hpiece
    exact (hcolumns column hcolumn).plain
  · exact hreferenced

theorem PlainGroup.referenced {constraint : String} {keys : List ForeignKey}
    (h : PlainGroup constraint keys) :
    PlainName ((keys.head?.map (·.referencedTable)).getD "") := by
  obtain ⟨first, rest, rfl⟩ := List.exists_cons_of_ne_nil h.keys_ne_nil
  exact (h.keys first List.mem_cons_self).2.1

theorem PlainGroup.columns {constraint : String} {keys : List ForeignKey}
    (h : PlainGroup constraint keys) : ∀ column ∈ keys.map (·.column), PlainName column := by
  intro column hcolumn
  obtain ⟨k, hk, rfl⟩ := List.mem_map.1 hcolumn
  exact (h.keys k hk).1

theorem PlainGroup.relation {constraint : String} {keys : List ForeignKey}
    (h : PlainGroup constraint keys) (t : Table) (taken : List String) :
    ∀ r ∈ (t.relationField taken constraint keys).relation, r.Plain := by
  intro r hr
  obtain rfl := Option.some.inj hr
  refine ⟨fun names hn => ?_, fun names hn => ?_, fun name hn => ?_, rfl, rfl⟩
  · obtain rfl := Option.some.inj hn
    exact h.columns
  · obtain rfl := Option.some.inj hn
    intro column hcolumn
    obtain ⟨k, hk, rfl⟩ := List.mem_map.1 hcolumn
    exact (h.keys k hk).2.2
  · obtain rfl := Option.some.inj hn
    exact h.constraint

/-- The field of a constraint with plain names. -/
theorem PlainGroup.built {constraint : String} {keys : List ForeignKey}
    (h : PlainGroup constraint keys) (t : Table) (taken : List String) :
    (t.relationField taken constraint keys).Built := by
  have hname : PlainName (relationFieldName ((keys.head?.map (·.referencedTable)).getD "")
      (keys.map (·.column)) taken) := plainName_relationFieldName h.referenced h.columns
  have hunnamed : ∀ u ∈ (none : Option UniqueFlag), u.mapName = none :=
    fun _ hu => (Option.not_mem_none _ hu).elim
  exact ⟨hname, Field.columned_of_plainName ((keys.map (·.column)).any t.mayBeNull) hname
    h.referenced rfl ⟨rfl, rfl⟩ hunnamed fun _ ht => (Option.not_mem_none _ ht).elim, hunnamed,
    h.relation t taken, Or.inr ⟨rfl, rfl⟩⟩

end Table

end CatalogSync
