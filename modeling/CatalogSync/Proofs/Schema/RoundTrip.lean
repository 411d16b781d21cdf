import CatalogSync.Proofs.Schema.ReadBack
import CatalogSync.Proofs.Schema.SchemaText
import Mathlib.Data.List.Infix

/-!
Schemas that are read back from their own text. A schema is well-formed where its names, types and
attribute texts keep clear of the marks around them, and where its marks of keys and its widths are
those that reading gives; the text of such a schema is read as the schema.
-/

namespace CatalogSync

open Text (startsWith NoBlank SingleSpaced NoBreak)
open UniqueFlag (marked)

namespace Field

/-- A default expression in the written form: single spaces, no prefix that closes more
parentheses than it opens, and as many brackets closed as opened. -/
@[mk_iff]
structure WellFormedDefault (e : List Char) : Prop where
  noSign : '@' ∉ e
  singleSpaced : SingleSpaced e
  prefixes : ∀ x, x <+: e → 0 ≤ (Balance.add {} x).round
  even : (Balance.add {} e).isEven = true

/-- A native type in the written form: one word that closes as many brackets as it opens. -/
@[mk_iff]
structure WellFormedNative (t : List Char) : Prop where
  noSign : '@' ∉ t
  noBlank : NoBlank t
  even : (Balance.add {} t).isEven = true

/-- A word of a relation in the written form. -/
@[mk_iff]
structure RelationWord (s : List Char) : Prop where
  noSign : '@' ∉ s
  noBlank : NoBlank s
  noBracket : NoBracket s

/-- A relation in the written form: words in the lists and as actions, and a map name without
brackets and separators. -/
@[mk_iff]
structure WellFormedRelation (r : Relation) : Prop where
  fields : ∀ names ∈ r.fields, ∀ item ∈ names, item.toList ≠ [] ∧ RelationWord item.toList
  references : ∀ names ∈ r.references, ∀ item ∈ names,
    item.toList ≠ [] ∧ RelationWord item.toList
  mapName : ∀ name ∈ r.mapName, '@' ∉ name.toList ∧ SingleSpaced name.toList ∧
    NoBracket name.toList ∧ Text.Unseparated name.toList
  onDelete : ∀ action ∈ r.onDelete, RelationWord action.toList
  onUpdate : ∀ action ∈ r.onUpdate, RelationWord action.toList

/-- A field in the written form. -/
@[mk_iff]
structure WellFormed (f : Field) : Prop where
  name : f.name.toList ≠ [] ∧ NoBlank f.name.toList ∧ '@' ∉ f.name.toList
  noComment : startsWith ['/', '/'] f.name.toList = false
  type : f.type.toList ≠ [] ∧ NoBlank f.type.toList ∧ '@' ∉ f.type.toList
  isArray : f.isArray = true ↔ Text.contains TypeRule.arrayMarker.toList f.type.toList = true
  isRequired : f.isRequired = true ↔ '?' ∉ f.type.toList
  unique : ∀ u ∈ f.unique, ∀ name ∈ u.mapName, '"' ∉ name.toList ∧ NoBreak name.toList
  default : ∀ e ∈ f.defaultExpr, WellFormedDefault e.toList
  native : ∀ t ∈ f.nativeType, WellFormedNative t.toList
  relation : ∀ r ∈ f.relation, WellFormedRelation r

instance (e : List Char) : Decidable (WellFormedDefault e) := by
  have hprefixes : (∀ x, x <+: e → 0 ≤ (Balance.add {} x).round) ↔
      ∀ x ∈ e.inits, 0 ≤ (Balance.add {} x).round := by
    simp only [List.mem_inits]
  exact decidable_of_iff (('@' ∉ e) ∧ SingleSpaced e ∧
    (∀ x ∈ e.inits, 0 ≤ (Balance.add {} x).round) ∧ (Balance.add {} e).isEven = true)
    (by rw [wellFormedDefault_iff, hprefixes])

instance (t : List Char) : Decidable (WellFormedNative t) :=
  decidable_of_iff' _ (wellFormedNative_iff t)

instance (s : List Char) : Decidable (RelationWord s) := decidable_of_iff' _ (relationWord_iff s)

instance (r : Relation) : Decidable (WellFormedRelation r) :=
  decidable_of_iff' _ (wellFormedRelation_iff r)

instance (f : Field) : Decidable f.WellFormed := decidable_of_iff' _ (wellFormed_iff f)

theorem WellFormedDefault.fits {e : List Char} (h : WellFormedDefault e) : DefaultFits e where
  singleSpaced := h.singleSpaced
  inner x y hxy := by
    have hfront := h.prefixes x (by rw [hxy]; exact List.prefix_append _ _)
    rw [Balance.add_eq, Balance.isEven]
    have hopen : 1 + (Balance.add {} x).round ≠ 0 := by omega
    simp [hopen]
  even := h.even

theorem RelationWord.itemFits {item : String}
    (h : item.toList ≠ [] ∧ RelationWord item.toList) : Relation.ItemFits item :=
  ⟨h.1, h.2.noBlank, h.2.noBracket⟩

theorem WellFormedRelation.fits {r : Relation} (h : WellFormedRelation r) : r.Fits where
  fields names hn item hi := RelationWord.itemFits (h.fields names hn item hi)
  references names hn item hi := RelationWord.itemFits (h.references names hn item hi)
  mapName name hn := (h.mapName name hn).2
  onDelete action ha := ⟨(h.onDelete action ha).noBlank, (h.onDelete action ha).noBracket⟩
  onUpdate action ha := ⟨(h.onUpdate action ha).noBlank, (h.onUpdate action ha).noBracket⟩

/-- No sign of a relation in the written form stands behind its first one. -/
theorem WellFormedRelation.marked_render {r : Relation} (h : WellFormedRelation r) :
    marked false r.render = false := by
  refine Relation.marked_render ⟨?_, ?_, ?_, ?_, ?_⟩
  · exact fun names hn item hi c hc hat => (h.fields names hn item hi).2.noSign (hat ▸ hc)
  · exact fun names hn item hi c hc hat => (h.references names hn item hi).2.noSign (hat ▸ hc)
  · exact fun name hn c hc hat => (h.mapName name hn).1 (hat ▸ hc)
  · exact fun action ha c hc hat => (h.onDelete action ha).noSign (hat ▸ hc)
  · exact fun action ha c hc hat => (h.onUpdate action ha).noSign (hat ▸ hc)

/-- A field whose texts keep clear of each other wherever they stand in a line. -/
@[mk_iff]
structure Separable (f : Field) : Prop where
  name : f.name.toList ≠ [] ∧ NoBlank f.name.toList ∧ '@' ∉ f.name.toList
  type : f.type.toList ≠ [] ∧ NoBlank f.type.toList ∧ '@' ∉ f.type.toList
  isArray : f.isArray = true ↔ Text.contains TypeRule.arrayMarker.toList f.type.toList = true
  isRequired : f.isRequired = true ↔ '?' ∉ f.type.toList
  unique : ∀ u ∈ f.unique, ∀ name ∈ u.mapName, '"' ∉ name.toList
  default : ∀ e ∈ f.defaultExpr, WellFormedDefault e.toList
  native : ∀ t ∈ f.nativeType, WellFormedNative t.toList
  relation : ∀ r ∈ f.relation, WellFormedRelation r

instance (f : Field) : Decidable f.Separable := decidable_of_iff' _ (separable_iff f)

theorem WellFormed.separable {f : Field} (h : f.WellFormed) : f.Separable :=
  ⟨h.name, h.type, h.isArray, h.isRequired, fun u hu name hname => (h.unique u hu name hname).1,
    h.default, h.native, h.relation⟩

theorem Separable.readsBack {f : Field} (h : f.Separable) : f.ReadsBack where
  default e he := (h.default e he).fits
  native t ht _ := (h.native t ht).even
  default_unmarked _ e he := UniqueFlag.marked_of_not_mem (h.default e he).noSign _
  native_unmarked _ t ht := UniqueFlag.marked_of_not_mem (h.native t ht).noSign _

/-- A field with separable texts keeps to the columns of its line. -/
theorem Separable.columned {f : Field} (h : f.Separable) : f.Columned where
  name := ⟨h.name.1, h.name.2.1⟩
  type := ⟨h.type.1, h.type.2.1⟩
  unmarked := ⟨UniqueFlag.marked_of_not_mem h.name.2.2 _, UniqueFlag.marked_of_not_mem h.type.2.2 _⟩
  isArray := Bool.eq_iff_iff.2 h.isArray
  isRequired := by
    have hmarker : TypeRule.optionalMarker.toList = ['?'] := rfl
    rw [Bool.eq_iff_iff, h.isRequired, hmarker, Bool.not_eq_true', ← Bool.not_eq_true,
      Text.contains_singleton]
  quote := h.unique
  native t ht := (h.native t ht).noBlank

theorem Separable.legible {f : Field} (h : f.Separable) : f.Legible :=
  h.columned.legible h.readsBack fun r hr =>
    ⟨(h.relation r hr).fits, (h.relation r hr).marked_render⟩

theorem WellFormed.readsBack {f : Field} (h : f.WellFormed) : f.ReadsBack := h.separable.readsBack

theorem WellFormed.legible {f : Field} (h : f.WellFormed) : f.Legible := h.separable.legible

theorem WellFormed.oneLine {f : Field} (h : f.WellFormed) : f.OneLine where
  name := h.name.2.1.noBreak
  type := h.type.2.1.noBreak
  unique u hu name hname := (h.unique u hu name hname).2
  default e he := (h.default e he).singleSpaced.noBreak
  native t ht := (h.native t ht).noBlank.noBreak
  relation r hr := (h.relation r hr).fits.noBreak

end Field

namespace Model

/-- A model in the written form: a name in front of the first brace, and fields and directives that
keep to their lines. -/
@[mk_iff]
structure Written (m : Model) : Prop where
  name_ne_nil : m.name.toList ≠ []
  trimmed : Trimmed m.name.toList
  noBrace : '{' ∉ m.name.toList
  noBreak : NoBreak m.name.toList
  fields : ∀ f ∈ m.fields, f.WellFormed
  directives : ∀ d ∈ m.directives, NoBreak d.toList ∧ DirectiveFits d.toList

/-- A model in the written form with the marks of keys and the widths that reading gives. -/
@[mk_iff]
structure WellFormed (m : Model) : Prop extends m.Written where
  keys : m.KeysAgree
  widths : m.recomputeWidths = m

instance (m : Model) : Decidable m.Written := decidable_of_iff' _ (written_iff m)

instance (m : Model) : Decidable m.WellFormed := decidable_of_iff' _ (wellFormed_iff m)

theorem Written.legible {m : Model} (h : m.Written) : m.Legible where
  fields f hf := by
    have hsign : startsWith ['@', '@'] f.name.toList = false := by
      cases hs : startsWith ['@', '@'] f.name.toList with
      | false => rfl
      | true =>
        obtain ⟨rest, hrest⟩ := Text.startsWith_iff.1 hs
        exact absurd (by rw [hrest]; simp) (h.fields f hf).name.2.2
    exact ⟨(h.fields f hf).legible, (h.fields f hf).noComment, hsign⟩
  directives d hd := (h.directives d hd).2

theorem Written.framed {m : Model} (h : m.Written) : m.Framed := by
  refine framed_of_noBreak ⟨h.name_ne_nil, h.trimmed, h.noBrace⟩ h.noBreak (fun l hl => ?_)
    fun d hd => (h.directives d hd).2
  rcases mem_renderBody hl with ⟨f, hf, rfl⟩ | rfl | ⟨d, hd, rfl⟩
  · exact Field.noBreak_line (h.fields f hf).oneLine _ _ _
  · exact fun c hc => absurd hc List.not_mem_nil
  · exact (h.directives d hd).1

end Model

namespace Schema

/-- A schema in the written form. -/
structure Written (s : Schema) : Prop where
  generator : HeaderFits s.generator.name s.generator.provider
  datasource : HeaderFits s.datasource.name s.datasource.provider
  models : ∀ m ∈ s.models, m.Written

/-- A schema whose blocks are found again makes the round trip exactly where each of its models is
read back from its own body. -/
theorem parse_render_eq_self_iff {s : Schema}
    (hg : HeaderFits s.generator.name s.generator.provider)
    (hd : HeaderFits s.datasource.name s.datasource.provider) (hm : ∀ m ∈ s.models, m.Framed) :
    Schema.parse s.render = .ok s ↔ ∀ m ∈ s.models, m.reread = .ok m := by
  rw [parse_render hg hd hm, ← mapM_eq_ok_self_iff]
  cases s.models.mapM Model.reread with
  | error e => simp [Except.map]
  | ok ms =>
    obtain ⟨generator, datasource, models⟩ := s
    simp [Except.map]

/-- A schema in the written form makes the round trip exactly where the marks of keys and the widths
of its models are those that reading gives. -/
theorem Written.parse_render_eq_self_iff {s : Schema} (h : s.Written) :
    Schema.parse s.render = .ok s ↔
      ∀ m ∈ s.models, m.KeysAgree ∧ m.recomputeWidths = m := by
  have hself : ∀ m ∈ s.models, (m.reread = .ok m ↔ m.KeysAgree ∧ m.recomputeWidths = m) :=
    fun m hm => (h.models m hm).legible.reread_eq_self_iff
  rw [Schema.parse_render_eq_self_iff h.generator h.datasource fun m hm => (h.models m hm).framed,
    forall₂_congr hself]

/-- A schema in the written form whose models have the marks of keys and the widths that reading
gives. -/
@[mk_iff]
structure WellFormed (s : Schema) : Prop where
  generator : HeaderFits s.generator.name s.generator.provider
  datasource : HeaderFits s.datasource.name s.datasource.provider
  models : ∀ m ∈ s.models, m.WellFormed

instance (s : Schema) : Decidable s.WellFormed := decidable_of_iff' _ (wellFormed_iff s)

theorem WellFormed.written {s : Schema} (h : s.WellFormed) : s.Written :=
  ⟨h.generator, h.datasource, fun m hm => (h.models m hm).toWritten⟩

/-- The text of a well-formed schema is read as the schema. -/
theorem parse_render_of_wellFormed {s : Schema} (h : s.WellFormed) :
    Schema.parse s.render = .ok s :=
  h.written.parse_render_eq_self_iff.2 fun m hm => ⟨(h.models m hm).keys, (h.models m hm).widths⟩

/-- Two models, one with a key of one field, one with a key of two fields and a relation. -/
def library : Schema where
  models := [
    Model.recomputeWidths {
      name := "Author"
      fields := [
        { name := "id", type := "Int", isId := true, defaultExpr := some "autoincrement()" },
        { name := "email", type := "String?", isRequired := false,
          unique := some ⟨some "one @ each"⟩, nativeType := some "VarChar(191)" },
        { name := "books", type := "Book[]", isArray := true }] },
    Model.recomputeWidths {
      name := "Book"
      fields := [
        { name := "shelf", type := "Int", isId := true, nativeType := some "UnsignedInt" },
        { name := "place", type := "Int", isId := true,
          defaultExpr := some "dbgenerated( f(1, 2) + a[0] )" },
        { name := "author", type := "Author",
          relation := some {
            mapName := some "fk of author", fields := some ["shelf", "place"],
            references := some ["id", "email"], onDelete := some "Cascade" } }]
      directives := ["  @@id([shelf, place])"] }]

theorem parse_render_library : library.WellFormed ∧ Schema.parse library.render = .ok library := by
  have hlibrary : library.WellFormed := by decide +kernel
  exact ⟨hlibrary, parse_render_of_wellFormed hlibrary⟩

end Schema

end CatalogSync
