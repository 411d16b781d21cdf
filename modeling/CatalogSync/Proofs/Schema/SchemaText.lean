import CatalogSync.Proofs.Schema.ModelText
import CatalogSync.Proofs.Schema.Sections

/-!
The text of a schema as its sections. The two header blocks and the blocks of the models are found
again by the lines that open them, as long as no other line of a block looks like one; each header
is read back, and each model is what its own body is read as.
-/

namespace CatalogSync

open Text (isBlank trim startsWith after? joined lines NoBlank NoBreak)

/-! ### Header blocks -/

/-- A name and a provider that are read back from a header block. -/
@[mk_iff]
structure HeaderFits (name provider : String) : Prop where
  name_ne_nil : name.toList ≠ []
  trimmed : Trimmed name.toList
  noBrace : '{' ∉ name.toList
  name_noBreak : NoBreak name.toList
  noQuote : '"' ∉ provider.toList
  provider_noBreak : NoBreak provider.toList

instance (name provider : String) : Decidable (HeaderFits name provider) :=
  decidable_of_iff' _ (headerFits_iff name provider)

namespace Header

/-- The first line of a header block. -/
def nameLine (word name : List Char) : List Char := word ++ ' ' :: name ++ [' ', '{']

/-- The line of a header block with its provider. -/
def providerLine (provider : List Char) : List Char := "  provider = \"".toList ++ provider ++ ['"']

theorem nameAfter?_nameLine (word : List Char) {name : List Char} (hne : name ≠ [])
    (htrimmed : Trimmed name) (hbrace : '{' ∉ name) :
    nameAfter? word (nameLine word name) = some (some name) := by
  obtain ⟨hfirst, hlast⟩ := Text.trim_eq_self_iff.1 htrimmed
  have hcut : Text.cutAt? '{' (' ' :: name ++ [' ', '{']) = some (' ' :: name ++ [' '], []) := by
    have hmem : '{' ∉ ' ' :: name ++ [' '] := by simpa using hbrace
    simpa using Text.cutAt?_append hmem []
  have htrim : trim (' ' :: name ++ [' ']) = name :=
    Text.trim_append [' '] [' '] (by decide) (by decide) hfirst hlast
  have hafter : after? word (nameLine word name) = some (' ' :: name ++ [' ', '{']) := by
    rw [nameLine, List.append_assoc]
    exact Text.after?_append word _
  rw [nameAfter?, hafter, Option.map_some, hcut]
  simp only [Option.map_some, Option.getD_some, htrim, if_neg hne]

theorem providerLine_eq (provider : List Char) : providerLine provider =
    ' ' :: ' ' :: ("provider = \"".toList ++ (provider ++ ['"'])) := by
  have hword : "  provider = \"".toList = ' ' :: ' ' :: "provider = \"".toList := by simp
  have hline : providerLine provider = "  provider = \"".toList ++ (provider ++ ['"']) :=
    List.append_assoc _ _ _
  rw [hline, hword]
  rfl

theorem provider?_space (s : List Char) : provider? (' ' :: s) = provider? s := by
  have hhere : providerHere? (' ' :: s) = none := by simp [providerHere?, after?]
  rw [provider?, hhere, Option.none_or]

theorem provider?_of_here {s value : List Char} (hne : s ≠ [])
    (h : providerHere? s = some value) : provider? s = some value := by
  cases s with
  | nil => exact absurd rfl hne
  | cons c s => rw [provider?, h, Option.some_or]

theorem provider?_providerLine {provider : List Char} (h : '"' ∉ provider) :
    provider? (providerLine provider) = some provider := by
  have hcut : Text.cutAt? '"' (provider ++ ['"']) = some (provider, []) := Text.cutAt?_append h []
  have hhere : providerHere? ("provider = \"".toList ++ (provider ++ ['"'])) =
      (Text.cutAt? '"' (provider ++ ['"'])).bind fun p => some p.1 := rfl
  rw [providerLine_eq, provider?_space, provider?_space]
  refine provider?_of_here (List.append_ne_nil_of_left_ne_nil (by decide) _) ?_
  rw [hhere, hcut]
  rfl

theorem foldl_addLine_complete (word name provider : List Char) (ls : List (List Char)) :
    ls.foldl (addLine word) ⟨some name, some provider⟩ = ⟨some name, some provider⟩ := by
  induction ls with
  | nil => rfl
  | cons l ls ih => exact ih

/-- A header block gives the name of its first line and the provider of its second, whatever lines
follow. -/
theorem ofLines_block (word : String) {name provider : String} (h : HeaderFits name provider)
    (ls : List (List Char)) : ofLines word
      (nameLine word.toList name.toList :: providerLine provider.toList :: ls) =
        ⟨some name.toList, some provider.toList⟩ := by
  have hname := nameAfter?_nameLine word.toList h.name_ne_nil h.trimmed h.noBrace
  have hfirst : addLine word.toList {} (nameLine word.toList name.toList) =
      ⟨some name.toList, none⟩ := by
    rw [addLine, if_pos rfl, hname]
  have hsecond : addLine word.toList ⟨some name.toList, none⟩ (providerLine provider.toList) =
      ⟨some name.toList, some provider.toList⟩ := by
    rw [addLine, if_neg (by simp), provider?_providerLine h.noQuote]
    rfl
  rw [ofLines, List.foldl_cons, List.foldl_cons, hfirst, hsecond, foldl_addLine_complete]

end Header

namespace Generator

/-- The lines of a generator block. -/
def block (g : Generator) : List (List Char) :=
  [Header.nameLine Section.generator.word.toList g.name.toList,
    Header.providerLine g.provider.toList, ['}']]

theorem render_eq (g : Generator) : g.render = joined ['\n'] g.block := by
  have hrender : g.render = "generator ".toList ++ g.name.toList
    ++ " \x7b\n  provider = \"".toList ++ g.provider.toList ++ "\"\n\x7d".toList := rfl
  rw [hrender, block, Header.providerLine_eq]
  simp [Header.nameLine, joined, Section.word]

theorem parse_block {g : Generator} (h : HeaderFits g.name g.provider) (ls : List (List Char)) :
    parse (g.block ++ ls) = g := by
  have hheader := Header.ofLines_block Section.generator.word h (['}'] :: ls)
  rw [block, List.cons_append, List.cons_append, parse, List.cons_append, List.nil_append, hheader]
  simp

end Generator

namespace Datasource

/-- The line of a datasource block with the address. -/
def urlLine : List Char := "  url      = ".toList ++ address.toList

/-- The lines of a datasource block. -/
def block (d : Datasource) : List (List Char) :=
  [Header.nameLine Section.datasource.word.toList d.name.toList,
    Header.providerLine d.provider.toList, urlLine, ['}']]

theorem render_eq (d : Datasource) : d.render = joined ['\n'] d.block := by
  have hrender : d.render = "datasource ".toList ++ d.name.toList
    ++ " \x7b\n  provider = \"".toList ++ d.provider.toList
    ++ "\"\n  url      = ".toList ++ address.toList ++ "\n\x7d".toList := rfl
  have hurl : urlLine = "  url      = ".toList ++ address.toList := rfl
  rw [hrender, block, Header.providerLine_eq, hurl]
  generalize address.toList = url
  simp [Header.nameLine, joined, Section.word]

theorem parse_block {d : Datasource} (h : HeaderFits d.name d.provider) (ls : List (List Char)) :
    parse (d.block ++ ls) = d := by
  have hheader := Header.ofLines_block Section.datasource.word h (urlLine :: ['}'] :: ls)
  rw [block, List.cons_append, List.cons_append, parse, List.cons_append, List.cons_append,
    List.nil_append, hheader]
  simp

end Datasource

namespace Model

/-- The lines of a model's header, without the word in front. -/
def headerLines (m : Model) : List (List Char) :=
  Text.cutWhere (· = '\n') (m.name.toList ++ [' ', '{'])

/-- The lines of a model behind the word in front, with the blank line that follows the model. -/
def blockTail (m : Model) : List (List Char) := m.headerLines ++ (m.renderBody ++ [['}'], []])

/-- The lines of a model. -/
def block (m : Model) : List (List Char) := m.blockTail.modifyHead ("model ".toList ++ ·)

theorem headerLines_ne_nil (m : Model) : m.headerLines ≠ [] := Text.cutWhere_ne_nil _ _

theorem joined_headerLines (m : Model) :
    joined ['\n'] m.headerLines = m.name.toList ++ [' ', '{'] :=
  Text.joined_cutWhere fun c _ hc => by simpa using hc

theorem joined_blockTail (m : Model) : joined ['\n'] m.blockTail =
    m.name.toList ++ [' ', '{'] ++ '\n' :: joined ['\n'] (m.renderBody ++ [['}'], []]) := by
  rw [blockTail, Text.joined_append _ m.headerLines_ne_nil (by simp), joined_headerLines]
  simp

theorem joined_modifyHead {separator : List Char} (pre : List Char) {ls : List (List Char)}
    (h : ls ≠ []) : joined separator (ls.modifyHead (pre ++ ·)) = pre ++ joined separator ls := by
  cases ls with
  | nil => exact absurd rfl h
  | cons l ls => cases ls <;> simp [joined]

theorem blockTail_ne_nil (m : Model) : m.blockTail ≠ [] := by simp [blockTail]

/-- The text of a model is its lines, each but the last with a line feed behind it. -/
theorem render_eq (m : Model) : m.render = joined ['\n'] m.block := by
  have hend : joined ['\n'] (m.renderBody ++ [['}'], []]) =
      joined ['\n'] (m.renderBody ++ [['}']]) ++ ['\n'] := by
    have happend : m.renderBody ++ [['}'], []] = (m.renderBody ++ [['}']]) ++ [[]] := by simp
    rw [happend, Text.joined_append _ (by simp) (by simp)]
    simp [joined]
  rw [block, joined_modifyHead _ m.blockTail_ne_nil, joined_blockTail, hend, render,
    List.cons_append, Text.joined_cons (by simp)]
  simp only [List.append_assoc, List.cons_append, List.nil_append]

/-- A model whose lines are found again in the section of the models: a name in front of the first
brace, and lines that stay in the section. -/
structure Enclosed (m : Model) : Prop where
  name_ne_nil : m.name.toList ≠ []
  trimmed : Trimmed m.name.toList
  noBrace : '{' ∉ m.name.toList
  header_noBreak : ∀ l ∈ m.headerLines, NoBreak l
  body_noBreak : ∀ l ∈ m.renderBody, NoBreak l
  header_stays : ∀ l ∈ m.headerLines.tail, Section.Stays l
  body_inside : ∀ l ∈ m.renderBody, Section.Inside l

/-- A model whose block is found again: no line of it but the first starts a model. -/
structure Framed (m : Model) : Prop extends m.Enclosed where
  header_model : ∀ l ∈ m.headerLines.tail, startsWith "model ".toList l = false

/-- Lines of a body keep to the block of their model. -/
theorem inside_renderBody {m : Model} (h : ∀ d ∈ m.directives, DirectiveFits d.toList) :
    ∀ l ∈ m.renderBody, Section.Inside l := by
  intro l hl
  refine (Section.inside_of_head? fun c hc => ?_).1
  rcases mem_renderBody hl with ⟨f, -, rfl⟩ | rfl | ⟨d, hd, rfl⟩
  · obtain rfl : ' ' = c := by simpa [fieldLine, fieldIndent] using hc
    decide
  · cases hc
  · obtain ⟨indent, rest, hshape, hindent⟩ := (h d hd).exists_indent
    rw [hshape] at hc
    cases indent with
    | nil =>
      obtain rfl : '@' = c := by simpa using hc
      decide
    | cons b indent =>
      obtain rfl : b = c := by simpa using hc
      have hblank := hindent b List.mem_cons_self
      intro hmem
      simp only [List.mem_cons, List.not_mem_nil, or_false] at hmem
      rcases hmem with rfl | rfl | rfl <;> cases hblank

/-- A name on one line makes a header of one line. -/
theorem headerLines_of_noBreak {m : Model} (h : NoBreak m.name.toList) :
    m.headerLines = [m.name.toList ++ [' ', '{']] := by
  refine Text.cutWhere_of_none fun c hc => ?_
  have hbreak : NoBreak (m.name.toList ++ [' ', '{']) := by
    refine h.append ?_
    decide
  have := hbreak c hc
  rw [decide_eq_false_iff_not]
  rintro rfl
  cases this

/-- A model with its name on one line is framed where no line of its body is broken. -/
theorem framed_of_noBreak {m : Model}
    (hname : m.name.toList ≠ [] ∧ Trimmed m.name.toList ∧ '{' ∉ m.name.toList)
    (hbreak : NoBreak m.name.toList) (hbody : ∀ l ∈ m.renderBody, NoBreak l)
    (hdirectives : ∀ d ∈ m.directives, DirectiveFits d.toList) : m.Framed := by
  have hheader := headerLines_of_noBreak hbreak
  have hnone : ∀ l, l ∉ m.headerLines.tail := by
    rw [hheader]
    exact fun l => List.not_mem_nil
  refine ⟨⟨hname.1, hname.2.1, hname.2.2, fun l hl => ?_, hbody, fun l hl => absurd hl (hnone l),
    inside_renderBody hdirectives⟩, fun l hl => absurd hl (hnone l)⟩
  rw [hheader] at hl
  obtain rfl := List.mem_singleton.1 hl
  refine hbreak.append ?_
  decide

/-- The first line of a block and the lines behind it. -/
theorem exists_block (m : Model) : ∃ first rest, m.blockTail = first :: rest ∧
    m.block = ("model ".toList ++ first) :: rest ∧ first ∈ m.headerLines ∧
    ∀ l ∈ rest, l ∈ m.headerLines.tail ∨ l ∈ m.renderBody ∨ l = ['}'] ∨ l = [] := by
  obtain ⟨first, others, hheader⟩ := List.exists_cons_of_ne_nil m.headerLines_ne_nil
  have htail : m.blockTail = first :: (others ++ (m.renderBody ++ [['}'], []])) := by
    rw [blockTail, hheader, List.cons_append]
  refine ⟨first, others ++ (m.renderBody ++ [['}'], []]), htail, ?_, ?_, fun l hl => ?_⟩
  · rw [block, htail, List.modifyHead_cons]
  · rw [hheader]
    exact List.mem_cons_self
  · rw [hheader, List.tail_cons]
    simpa using hl

theorem Enclosed.noBreak {m : Model} (h : m.Enclosed) : ∀ l ∈ m.block, NoBreak l := by
  have hword : NoBreak "model ".toList := by decide
  have hbrace : NoBreak ['}'] := by decide
  obtain ⟨first, rest, -, hblock, hfirst, hrest⟩ := m.exists_block
  intro l hl
  rw [hblock] at hl
  rcases List.mem_cons.1 hl with rfl | hl
  · exact hword.append (h.header_noBreak first hfirst)
  · rcases hrest l hl with hl | hl | rfl | rfl
    · exact h.header_noBreak l (List.mem_of_mem_tail hl)
    · exact h.body_noBreak l hl
    · exact hbrace
    · exact fun c hc => absurd hc List.not_mem_nil

theorem Enclosed.stays {m : Model} (h : m.Enclosed) {rest : List (List Char)}
    (hrest : ∀ l ∈ rest, l ∈ m.headerLines.tail ∨ l ∈ m.renderBody ∨ l = ['}'] ∨ l = []) :
    ∀ l ∈ rest, Section.Stays l := by
  intro l hl
  rcases hrest l hl with hl | hl | rfl | rfl
  · exact h.header_stays l hl
  · exact (h.body_inside l hl).toStays
  · exact (Section.inside_of_head? (by simp)).1.toStays
  · exact (Section.inside_of_head? (by simp)).1.toStays

theorem Framed.inside {m : Model} (h : m.Framed) {rest : List (List Char)}
    (hrest : ∀ l ∈ rest, l ∈ m.headerLines.tail ∨ l ∈ m.renderBody ∨ l = ['}'] ∨ l = []) :
    ∀ l ∈ rest, Section.Inside l := by
  intro l hl
  rcases hrest l hl with hl | hl | rfl | rfl
  · exact ⟨h.header_stays l hl, h.header_model l hl⟩
  · exact h.body_inside l hl
  · exact (Section.inside_of_head? (by simp)).1
  · exact (Section.inside_of_head? (by simp)).1

end Model

/-! ### The whole text -/

namespace Schema

/-- The lines of all models. -/
def modelLines (s : Schema) : List (List Char) := s.models.flatMap Model.block

theorem lines_models {ms : List Model} (h : ∀ m ∈ ms, m.Enclosed) :
    lines (ms.flatMap fun m => m.render ++ ['\n']) = ms.flatMap Model.block := by
  induction ms with
  | nil => rfl
  | cons m ms ih =>
    have hm := h m List.mem_cons_self
    have hne : m.block ≠ [] := by
      obtain ⟨first, rest, -, hblock, -⟩ := m.exists_block
      rw [hblock]
      simp
    rw [List.flatMap_cons, List.flatMap_cons, List.append_assoc, m.render_eq, List.cons_append,
      List.nil_append, Text.lines_joined_append hne hm.noBreak,
      ih fun n hn => h n (List.mem_cons_of_mem _ hn)]

theorem noBreak_headerBlock (word : String) {name provider : String} (hword : NoBreak word.toList)
    (h : HeaderFits name provider) : NoBreak (Header.nameLine word.toList name.toList) ∧
      NoBreak (Header.providerLine provider.toList) ∧ NoBreak ['}'] := by
  have hopen : NoBreak [' ', '{'] ∧ NoBreak [' '] ∧ NoBreak "  provider = \"".toList ∧
      NoBreak ['"'] ∧ NoBreak ['}'] := by decide
  obtain ⟨hopen, hspace, hprovider, hquote, hclose⟩ := hopen
  have hname : Header.nameLine word.toList name.toList =
      word.toList ++ [' '] ++ name.toList ++ [' ', '{'] := by
    simp [Header.nameLine]
  rw [hname]
  exact ⟨((hword.append hspace).append h.name_noBreak).append hopen,
    (hprovider.append h.provider_noBreak).append hquote, hclose⟩

/-- The lines of a schema's text: two header blocks and the models, blank lines between them. -/
theorem lines_render {s : Schema} (hg : HeaderFits s.generator.name s.generator.provider)
    (hd : HeaderFits s.datasource.name s.datasource.provider) (hm : ∀ m ∈ s.models, m.Enclosed) :
    lines s.render =
      s.generator.block ++ [] :: (s.datasource.block ++ [] :: s.modelLines) := by
  have hurl : NoBreak Datasource.urlLine := by decide
  have hgenerator : ∀ l ∈ s.generator.block, NoBreak l := by
    have := noBreak_headerBlock Section.generator.word
      (by decide) hg
    simpa [Generator.block] using this
  have hdatasource : ∀ l ∈ s.datasource.block, NoBreak l := by
    obtain ⟨hname, hprovider, hclose⟩ := noBreak_headerBlock Section.datasource.word
      (by decide) hd
    intro l hl
    simp only [Datasource.block, List.mem_cons, List.not_mem_nil, or_false] at hl
    rcases hl with rfl | rfl | rfl | rfl
    · exact hname
    · exact hprovider
    · exact hurl
    · exact hclose
  have htext : s.render = joined ['\n'] s.generator.block ++ '\n' :: '\n' ::
      (joined ['\n'] s.datasource.block ++ '\n' :: '\n' ::
        s.models.flatMap fun m => m.render ++ ['\n']) := by
    rw [render, Generator.render_eq, Datasource.render_eq]
    simp only [List.append_assoc, List.cons_append, List.nil_append]
  rw [htext, Text.lines_joined_append (by simp [Generator.block]) hgenerator, Text.lines_newline,
    Text.lines_joined_append (by simp [Datasource.block]) hdatasource, Text.lines_newline,
    lines_models hm]
  rfl

theorem linesFrom_models {ms : List Model} (h : ∀ m ∈ ms, m.Enclosed) (t current : Section) :
    Section.linesFrom t current (ms.flatMap Model.block) =
      if .models = t then ms.flatMap Model.block else [] := by
  induction ms generalizing current with
  | nil => simp
  | cons m ms ih =>
    obtain ⟨first, rest, -, hblock, -, hrest⟩ := m.exists_block
    have hstays := (h m List.mem_cons_self).stays hrest
    have hopen : Section.openedBy? ("model ".toList ++ first) = some .models := by
      have hword : "model ".toList ++ first = Section.models.word.toList ++ (' ' :: first) := by
        simp [Section.word]
      rw [hword]
      exact Section.openedBy?_append .models _
    rw [List.flatMap_cons, hblock,
      Section.linesFrom_block t current hopen fun l hl => (hstays l hl).openedBy?,
      ih fun n hn => h n (List.mem_cons_of_mem _ hn)]
    split <;> simp

theorem openedBy?_nameLine (t : Section) (name : List Char) :
    Section.openedBy? (Header.nameLine t.word.toList name) = some t := by
  rw [Header.nameLine, List.append_assoc]
  exact Section.openedBy?_append t _

/-- The lines behind the first one of a header block open no section. -/
theorem openedBy?_headerBody (provider : List Char) :
    ∀ l ∈ [Header.providerLine provider, Datasource.urlLine, ['}'], []], Section.openedBy? l = none := by
  have hprovider : Section.openedBy? (Header.providerLine provider) = none := by
    refine (Section.inside_of_head? ?_).2
    rw [Header.providerLine_eq]
    simp
  have hothers : ∀ l ∈ [Datasource.urlLine, ['}'], []], Section.openedBy? l = none := by decide
  exact List.forall_mem_cons.2 ⟨hprovider, hothers⟩

/-- Each section gets the lines of its own blocks. -/
theorem linesFrom_blocks {s : Schema} (hm : ∀ m ∈ s.models, m.Enclosed) (t : Section) :
    Section.linesFrom t .generator
      (s.generator.block ++ [] :: (s.datasource.block ++ [] :: s.modelLines)) =
      (if .generator = t then s.generator.block ++ [[]] else [])
        ++ ((if .datasource = t then s.datasource.block ++ [[]] else [])
          ++ if .models = t then s.modelLines else []) := by
  have hgenerator : ∀ l ∈ [Header.providerLine s.generator.provider.toList, ['}'], []],
      Section.openedBy? l = none ∨ Section.openedBy? l = some .generator := by
    intro l hl
    refine .inl (openedBy?_headerBody s.generator.provider.toList l ?_)
    simp only [List.mem_cons] at hl ⊢
    tauto
  have hdatasource : ∀ l ∈ [Header.providerLine s.datasource.provider.toList,
      Datasource.urlLine, ['}'], []],
      Section.openedBy? l = none ∨ Section.openedBy? l = some .datasource :=
    fun l hl => .inl (openedBy?_headerBody s.datasource.provider.toList l hl)
  have htext : s.generator.block ++ [] :: (s.datasource.block ++ [] :: s.modelLines) =
      s.generator.block ++ [[]] ++ (s.datasource.block ++ [[]] ++ s.modelLines) := by
    simp
  have hfirst := Section.linesFrom_block t .generator (openedBy?_nameLine .generator s.generator.name.toList)
    hgenerator (s.datasource.block ++ [[]] ++ s.modelLines)
  have hsecond := Section.linesFrom_block t .generator (openedBy?_nameLine .datasource s.datasource.name.toList)
    hdatasource s.modelLines
  rw [modelLines, linesFrom_models hm, ← modelLines] at hsecond
  rw [htext]
  exact hfirst.trans (congrArg (_ ++ ·) hsecond)

theorem linesOf_render {s : Schema} (hg : HeaderFits s.generator.name s.generator.provider)
    (hd : HeaderFits s.datasource.name s.datasource.provider) (hm : ∀ m ∈ s.models, m.Enclosed) :
    Section.linesOf .generator (lines s.render) = s.generator.block ++ [[]] ∧
      Section.linesOf .datasource (lines s.render) = s.datasource.block ++ [[]] ∧
      Section.linesOf .models (lines s.render) = s.modelLines := by
  simp [lines_render hg hd hm, Section.linesOf_eq, linesFrom_blocks hm]

/-! ### Fragments -/

theorem fragmentLines_ne_nil (ls : List (List Char)) : fragmentLines ls ≠ [] := by
  cases ls with
  | nil => simp [fragmentLines]
  | cons l ls =>
    rw [fragmentLines]
    split <;> simp

/-- Lines that start no model go to the fragment that is open. -/
theorem fragmentLines_append {ls : List (List Char)}
    (h : ∀ l ∈ ls, startsWith "model ".toList l = false) (rest : List (List Char)) :
    fragmentLines (ls ++ rest) = (fragmentLines rest).modifyHead (ls ++ ·) := by
  obtain ⟨first, others, hfirst⟩ := List.exists_cons_of_ne_nil (fragmentLines_ne_nil rest)
  induction ls with
  | nil =>
    rw [List.nil_append, hfirst]
    rfl
  | cons l ls ih =>
    have hl : after? "model ".toList l = none :=
      Text.after?_eq_none_iff.2 (h l List.mem_cons_self)
    have htail := ih fun k hk => h k (List.mem_cons_of_mem _ hk)
    rw [hfirst, List.modifyHead_cons] at htail ⊢
    rw [List.cons_append, fragmentLines, hl, htail]
    rfl

theorem fragmentLines_model (line : List Char) (rest : List (List Char)) :
    fragmentLines (("model ".toList ++ line) :: rest) =
      [] :: (fragmentLines rest).modifyHead (line :: ·) := by
  obtain ⟨first, others, hfirst⟩ := List.exists_cons_of_ne_nil (fragmentLines_ne_nil rest)
  have hline : after? "model ".toList ("model ".toList ++ line) = some line := Text.after?_append _ _
  rw [fragmentLines, hline, hfirst]
  rfl

/-- The fragments of the blocks of models are the models' own lines, behind an empty one. -/
theorem fragmentLines_models {ms : List Model} (h : ∀ m ∈ ms, m.Framed) :
    fragmentLines (ms.flatMap Model.block) = [] :: ms.map Model.blockTail := by
  induction ms with
  | nil => rfl
  | cons m ms ih =>
    obtain ⟨first, rest, htail, hblock, -, hrest⟩ := m.exists_block
    have hinside := (h m List.mem_cons_self).inside hrest
    rw [List.flatMap_cons, hblock, List.cons_append, fragmentLines_model,
      fragmentLines_append fun l hl => (hinside l hl).model,
      ih fun n hn => h n (List.mem_cons_of_mem _ hn), List.map_cons, htail]
    simp

end Schema

namespace Model

theorem addBody_append (m : Model) (ls rest : List (List Char)) :
    addBody m (ls ++ rest) = (addBody m ls).bind fun n => addBody n rest := by
  induction ls generalizing m with
  | nil => rfl
  | cons l ls ih =>
    rw [List.cons_append, addBody, addBody]
    cases bodyLine l with
    | skipped => exact ih m
    | directive text => exact ih _
    | field line =>
      dsimp only
      cases Field.parse line with
      | error e => rfl
      | ok found => cases found <;> exact ih _

/-- The text behind the header of a model has the lines of its body, in skipped ones. -/
theorem addBody_lines {m : Model} (h : ∀ l ∈ m.renderBody, NoBreak l) (n : Model) :
    addBody n (lines ('\n' :: joined ['\n'] (m.renderBody ++ [['}'], []]))) =
      addBody n m.renderBody := by
  have htext : joined ['\n'] (m.renderBody ++ [['}'], []]) =
      joined ['\n'] (m.renderBody ++ [['}']]) ++ '\n' :: [] := by
    have happend : m.renderBody ++ [['}'], []] = (m.renderBody ++ [['}']]) ++ [[]] := by simp
    rw [happend, Text.joined_append _ (by simp) (by simp)]
    simp [joined]
  have hbreak : ∀ l ∈ m.renderBody ++ [['}']], NoBreak l := by
    intro l hl
    rcases List.mem_append.1 hl with hl | hl
    · exact h l hl
    · obtain rfl : l = ['}'] := by simpa using hl
      decide
  have hskip : ∀ n : Model, addBody n [['}']] = .ok n := fun _ => rfl
  rw [Text.lines_newline, htext, Text.lines_joined_append (by simp) hbreak]
  have hfirst : ∀ ls, addBody n ([] :: ls) = addBody n ls := fun _ => rfl
  rw [hfirst, lines, List.append_nil, addBody_append]
  cases addBody n m.renderBody with
  | error e => rfl
  | ok k => exact hskip k

/-- A model is read from its block as its body is read. -/
theorem parse_blockTail {m : Model} (h : m.Framed) :
    Model.parse (joined ['\n'] m.blockTail) = m.reread.map some := by
  obtain ⟨hfirst, hlast⟩ := Text.trim_eq_self_iff.1 h.trimmed
  have hcut : Text.cutAt? '{' (joined ['\n'] m.blockTail) = some (m.name.toList ++ [' '],
      '\n' :: joined ['\n'] (m.renderBody ++ [['}'], []])) := by
    have hmem : '{' ∉ m.name.toList ++ [' '] := by
      have := h.noBrace
      simpa using this
    have htext : joined ['\n'] m.blockTail = m.name.toList ++ [' '] ++
        '{' :: '\n' :: joined ['\n'] (m.renderBody ++ [['}'], []]) := by
      rw [joined_blockTail]
      simp
    rw [htext]
    exact Text.cutAt?_append hmem _
  have htrim : trim (m.name.toList ++ [' ']) = m.name.toList :=
    Text.trim_append [] [' '] (by simp) (by decide) hfirst hlast
  have hsplit : split? (joined ['\n'] m.blockTail) =
      some (m.name.toList, '\n' :: joined ['\n'] (m.renderBody ++ [['}'], []])) := by
    rw [split?, hcut, Option.bind_some]
    simp only [htrim, if_neg h.name_ne_nil]
  rw [parse_of_split hsplit, addBody_lines h.body_noBreak, String.ofList_toList, reread]
  cases addBody { name := m.name } m.renderBody <;> rfl

end Model

namespace Schema

theorem parseModels_map {ms : List Model} {text : Model → List Char}
    (h : ∀ m ∈ ms, Model.parse (text m) = m.reread.map some) :
    parseModels (ms.map text) = ms.mapM Model.reread := by
  induction ms with
  | nil => rfl
  | cons m ms ih =>
    rw [List.map_cons, parseModels, h m List.mem_cons_self,
      ih fun n hn => h n (List.mem_cons_of_mem _ hn), List.mapM_cons]
    cases m.reread with
    | error e => rfl
    | ok n => cases ms.mapM Model.reread <;> rfl

/-- The text of a schema is read as its headers and, model by model, as what their bodies are read
as. -/
theorem parse_render {s : Schema} (hg : HeaderFits s.generator.name s.generator.provider)
    (hd : HeaderFits s.datasource.name s.datasource.provider) (hm : ∀ m ∈ s.models, m.Framed) :
    parse s.render = (s.models.mapM Model.reread).map fun ms => { s with models := ms } := by
  obtain ⟨hgenerator, hdatasource, hmodels⟩ :=
    linesOf_render hg hd fun m h => (hm m h).toEnclosed
  have hfragments : fragments s.modelLines = [] :: s.models.map fun m => joined ['\n'] m.blockTail := by
    rw [fragments, modelLines, fragmentLines_models hm, List.map_cons, List.map_map]
    rfl
  have hempty : Model.parse [] = .ok none := rfl
  rw [parse]
  simp only [hgenerator, hdatasource, hmodels, hfragments, Generator.parse_block hg,
    Datasource.parse_block hd]
  rw [parseModels, hempty, parseModels_map fun m h => Model.parse_blockTail (hm m h)]
  cases s.models.mapM Model.reread <;> rfl

end Schema

end CatalogSync
