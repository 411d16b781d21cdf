import CatalogSync.Proofs.Collect
import CatalogSync.Proofs.Schema.ParsedText
import CatalogSync.Proofs.Text.Pieces
import Mathlib.Order.Bounds.Defs

/-!
What holds of every schema that was read, whatever the text. Names are trimmed and texts are free of what
would end them where they are written, the flags of a field say what its type says, expressions close their
brackets, keys are marked as the key directives say, and widths are those of the fields.
-/

namespace CatalogSync

open Text (isBlank trim NoBlank SingleSpaced NoTrailingBlank)

/-- A name in front of a brace: not empty, trimmed, without a brace of its own. -/
structure Heading (name : String) : Prop where
  ne_empty : name ≠ ""
  trimmed : Trimmed name.toList
  noBrace : '{' ∉ name.toList

theorem HeaderFits.heading {name provider : String} (h : HeaderFits name provider) : Heading name :=
  ⟨by simpa using h.name_ne_nil, h.trimmed, h.noBrace⟩

namespace Relation

/-- An item of a list: not empty, trimmed, without a comma that is followed by a space. -/
structure ListItem (item : String) : Prop where
  ne_empty : item ≠ ""
  trimmed : Trimmed item.toList
  noSeparator : ¬[',', ' '] <:+: item.toList

theorem listItem_of_mem_parseList {s : List Char} {item : String} (h : item ∈ parseList s) :
    ListItem item := by
  obtain ⟨text, htext, rfl⟩ := List.mem_map.1 h
  obtain ⟨htext, hne⟩ := List.mem_filter.1 htext
  obtain ⟨piece, hpiece, rfl⟩ := List.mem_map.1 htext
  obtain ⟨-, -, -, hseparator, -⟩ := Text.isPiece_of_mem_splitOn (by decide) hpiece
  refine ⟨by simpa using hne, ?_, fun hinfix => hseparator ?_⟩
  · rw [String.toList_ofList]
    exact Text.trim_trim piece
  · rw [String.toList_ofList] at hinfix
    exact hinfix.trans (Text.isInfix_trim piece)

/-- Both lists of a relation, where they are present, hold items. -/
structure HoldsItems (r : Relation) : Prop where
  fields : ∀ names ∈ r.fields, ∀ item ∈ names, ListItem item
  references : ∀ names ∈ r.references, ∀ item ∈ names, ListItem item

theorem HoldsItems.setPart {r : Relation} (h : r.HoldsItems) (key : PartKey) (value : List Char) :
    (r.setPart key value).HoldsItems := by
  have hlist : ∀ names ∈ some (parseList value), ∀ item ∈ names, ListItem item := by
    intro names hnames item hitem
    obtain rfl := Option.some.inj hnames
    exact listItem_of_mem_parseList hitem
  cases key with
  | fields => exact ⟨hlist, h.references⟩
  | references => exact ⟨h.fields, hlist⟩
  | onDelete => exact ⟨h.fields, h.references⟩
  | onUpdate => exact ⟨h.fields, h.references⟩
  | map => exact ⟨h.fields, h.references⟩

theorem HoldsItems.addPieces {whole : List Char} {pieces : List (List Char)} {r r' : Relation}
    (hr : r.HoldsItems) (h : addPieces whole r pieces = .ok r') : r'.HoldsItems := by
  induction pieces generalizing r with
  | nil =>
    obtain rfl := Except.ok.inj h
    exact hr
  | cons piece pieces ih =>
    rw [Relation.addPieces] at h
    split at h
    · exact ih (hr.setPart _ _) h
    · cases h

theorem holdsItems_of_parse {s : List Char} {r : Relation} (h : Relation.parse s = .ok r) :
    r.HoldsItems :=
  HoldsItems.addPieces ⟨by simp, by simp⟩ h

end Relation

namespace Field

/-- The parts of a field agree with each other and with the grammar of its line. -/
structure Consistent (f : Field) : Prop where
  name : f.name ≠ "" ∧ NoBlank f.name.toList
  type : f.type ≠ "" ∧ NoBlank f.type.toList
  isArray : f.isArray = true ↔ ['[', ']'] <:+: f.type.toList
  isRequired : f.isRequired = true ↔ '?' ∉ f.type.toList
  unique : ∀ u ∈ f.unique, ∀ name ∈ u.mapName, '"' ∉ name.toList
  default : ∀ e ∈ f.defaultExpr, SingleSpaced e.toList ∧
    ∀ k : Bracket, e.toList.count k.opener = e.toList.count k.closer
  relation : ∀ r ∈ f.relation, r.HoldsItems

/-- An expression whose attribute evens out evens out by itself. -/
theorem count_eq_of_isEven_defaultText {e : List Char} (h : (Balance.add {} (defaultText e)).isEven = true)
    (k : Bracket) : e.count k.opener = e.count k.closer := by
  have hframe : "@default(".toList.count k.opener + [')'].count k.opener =
      "@default(".toList.count k.closer + [')'].count k.closer := by
    cases k <;> decide
  have hcount := Balance.isEven_add_iff.1 h k
  simp only [defaultText_eq, List.count_append] at hcount
  omega

theorem consistent_of_parse {line : List Char} {f : Field} (h : Field.parse line = .ok (some f)) :
    f.Consistent := by
  have hread := read_of_parse h
  obtain ⟨rest, name, type, ws, hextract, -, -, hattributes⟩ := exists_of_parse h
  have hsaid := saidBy_of_withAttributes hattributes
  refine ⟨⟨?_, hread.name.2⟩, ⟨?_, hread.type.2⟩, ?_, ?_, fun u hu n hn => ?_, fun e he => ?_,
    fun r hr => ?_⟩
  · simpa using hread.name.1
  · simpa using hread.type.1
  · rw [hread.isArray, Text.contains_iff]
    rfl
  · rw [hread.isRequired, Bool.not_eq_true', Bool.eq_false_iff]
    exact not_congr Text.contains_singleton
  · rw [hu] at hextract
    obtain ⟨-, mark, -, -, -, hspells⟩ := UniqueFlag.exists_of_extractFrom hextract
    exact (hspells.isInfix hn).1
  · have hmem := (hsaid.default e he).resolve_left (by simp [ofNameAndType])
    exact ⟨hread.default e he, count_eq_of_isEven_defaultText (Attributes.isEven_of_mem_collect rfl hmem)⟩
  · obtain ⟨text, -, -, hparse⟩ := (hsaid.relation r hr).resolve_left (by simp [ofNameAndType])
    exact Relation.holdsItems_of_parse hparse

end Field

namespace Model

theorem Given.consistent {f : Field} (h : Given f) : f.Consistent := by
  obtain ⟨line, g, -, -, hparse, hself⟩ := h
  have hg := Field.consistent_of_parse hparse
  rw [hself]
  exact ⟨hg.name, hg.type, hg.isArray, hg.isRequired, hg.unique, hg.default, hg.relation⟩

/-- The first field of a name that is marked has the mark of a key. -/
theorem isId_of_markFirst_eq {names : List String} {fields : List Field}
    (h : markFirst names fields = fields) {name : String} (hname : name ∈ names) {f : Field}
    (hf : fields.find? (·.name = name) = some f) : f.isId = true := by
  obtain ⟨hsame, l, r, hsplit, hl⟩ := List.find?_eq_some_iff_append.1 hf
  obtain rfl : f.name = name := by simpa using hsame
  have hshown : fields.map (fun g => { g with isId := g.isId }) = fields := List.map_id' fields
  refine ((markFirst_map_eq_iff Field.isId).1 (by rw [hshown, h]) l f r hsplit).2 (.inr ⟨hname, ?_⟩)
  intro hmem
  obtain ⟨g, hg, hgname⟩ := List.mem_map.1 hmem
  simpa [hgname] using hl g hg

theorem isGreatest_widthOf {measure : Field → Nat} {fields : List Field} (h : fields ≠ []) :
    IsGreatest {w | ∃ f ∈ fields, measure f + 1 = w} (widthOf (fields.map measure)) := by
  constructor
  · have hne : fields.map measure ≠ [] := by simpa using h
    obtain ⟨n, hn, hwidth⟩ := exists_widthOf_eq hne
    obtain ⟨f, hf, rfl⟩ := List.mem_map.1 hn
    exact ⟨f, hf, hwidth.symm⟩
  · rintro w ⟨f, hf, rfl⟩
    exact length_le_widthOf (List.mem_map_of_mem hf)

/-- The parts of a model agree with each other. The names of a key directive are those that reading finds
in the first list of its line. -/
structure Consistent (m : Model) : Prop where
  name : Heading m.name
  fields : ∀ f ∈ m.fields, f.Consistent
  directives : ∀ d ∈ m.directives, NoTrailingBlank d.toList ∧
    ∃ indent rest, d.toList = indent ++ '@' :: '@' :: rest ∧ ∀ c ∈ indent, isBlank c = true
  keys : ∀ d ∈ m.directives, ∀ names ∈ idNames? d.toList, ∀ name ∈ Relation.parseList names,
    ∀ f ∈ m.field? name, f.isId = true
  widths_nil : m.fields = [] → m.nameWidth = 0 ∧ m.typeWidth = 0
  nameWidth : m.fields ≠ [] → IsGreatest {w | ∃ f ∈ m.fields, f.name.length + 1 = w} m.nameWidth
  typeWidth : m.fields ≠ [] → IsGreatest {w | ∃ f ∈ m.fields, f.type.length + 1 = w} m.typeWidth

theorem ReadOff.consistent {m : Model} (h : m.ReadOff) : m.Consistent where
  name := ⟨by simpa using h.name_ne_nil, h.trimmed, h.noBrace⟩
  fields f hf := (h.fields f hf).consistent
  directives d hd := ⟨(h.directives d hd).1.noTrailingBlank, (h.directives d hd).1.exists_indent⟩
  keys d hd names hnames name hname f hf := by
    refine isId_of_markFirst_eq h.marked (List.mem_flatMap.2 ⟨d, hd, ?_⟩) hf
    rw [hnames]
    exact hname
  widths_nil hnil := by
    rw [← h.widths, recomputeWidths, hnil]
    exact ⟨rfl, rfl⟩
  nameWidth hne := by
    rw [← h.widths]
    exact isGreatest_widthOf hne
  typeWidth hne := by
    rw [← h.widths]
    exact isGreatest_widthOf hne

end Model

namespace Schema

/-- The parts of a schema agree with each other and with the grammar of its text. -/
structure Consistent (s : Schema) : Prop where
  generator : Heading s.generator.name ∧ '"' ∉ s.generator.provider.toList
  datasource : Heading s.datasource.name ∧ '"' ∉ s.datasource.provider.toList
  models : ∀ m ∈ s.models, m.Consistent

/-- Every text that can be read gives a consistent schema. -/
theorem parse_consistent {t : List Char} {s : Schema} (h : Schema.parse t = .ok s) : s.Consistent where
  generator := ⟨(headerFits_of_parse h).1.heading, (headerFits_of_parse h).1.noQuote⟩
  datasource := ⟨(headerFits_of_parse h).2.heading, (headerFits_of_parse h).2.noQuote⟩
  models _ hm := (readOff_of_parse h hm).consistent

/-- A text that keeps to the grammar and not to the form in which schemas are written. -/
def untidy : List Char :=
  "generator  local\x7b
provider =\"a \x7b b\"
model  Loan
 \x7b
 reader   Reader? @relation(fields:[ no ,  copy])
 copy Int @default( f( [2] ) ) @unique( map: \"one\" )
 no Int[] @default(f(1
 no Int
\t@@id([ copy,  no ])  \x20
\x7d
".toList

set_option maxRecDepth 2048 in
theorem parse_consistent_untidy : ∃ s, Schema.parse untidy = .ok s ∧ s.Consistent ∧
    s.generator = ⟨"local", "a \x7b b"⟩ ∧
    s.models.map (fun m => (m.name, m.nameWidth, m.typeWidth)) = [("Loan", 7, 8)] ∧
    s.models.flatMap (fun m => m.fields.map fun f => (f.name, f.isId, f.defaultExpr)) =
      [("reader", false, none), ("copy", true, some " f( [2] ) "), ("no", true, none)] := by
  have hparsed : ∃ s ∈ (Schema.parse untidy).toOption, s.generator = ⟨"local", "a \x7b b"⟩ ∧
      s.models.map (fun m => (m.name, m.nameWidth, m.typeWidth)) = [("Loan", 7, 8)] ∧
      s.models.flatMap (fun m => m.fields.map fun f => (f.name, f.isId, f.defaultExpr)) =
        [("reader", false, none), ("copy", true, some " f( [2] ) "), ("no", true, none)] := by
    have hletters : untidy = _ := String.toList_ofList
    rw [hletters]
    decide +kernel
  obtain ⟨s, hs, hgenerator, hmodels, hfields⟩ := hparsed
  have h := eq_ok_of_mem_toOption hs
  exact ⟨s, h, parse_consistent h, hgenerator, hmodels, hfields⟩

end Schema

end CatalogSync
