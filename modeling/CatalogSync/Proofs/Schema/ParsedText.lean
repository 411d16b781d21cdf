import CatalogSync.Proofs.Schema.Parsed
import CatalogSync.Proofs.Schema.RelationTally
import CatalogSync.Proofs.Schema.SchemaText

/-!
Schemas that were read, as schemas to be written. Their headers are read back; their models have a
name in front of the first brace, which may go over several lines, and fields and directives that
keep to their lines. So all lines of a schema that was read are found again in their sections.
-/

namespace CatalogSync

open Text (isBlank trim startsWith joined lines NoBlank NoBreak)

/-! ### Header blocks -/

namespace Header

/-- What was found of a header can be written again. -/
structure Fits (h : Header) : Prop where
  name : ∀ name ∈ h.name, name ≠ [] ∧ Trimmed name ∧ '{' ∉ name ∧ NoBreak name
  provider : ∀ provider ∈ h.provider, '"' ∉ provider ∧ NoBreak provider

theorem name_of_nameAfter? {word line name : List Char} (hline : NoBreak line)
    (h : nameAfter? word line = some (some name)) :
    name ≠ [] ∧ Trimmed name ∧ '{' ∉ name ∧ NoBreak name := by
  obtain ⟨rest, hrest, hname⟩ := Option.map_eq_some_iff.1 h
  dsimp only at hname
  split at hname
  · cases hname
  next hne =>
    obtain rfl := Option.some.inj hname
    have hfront : '{' ∉ ((Text.cutAt? '{' rest).map (·.1)).getD rest ∧
        ((Text.cutAt? '{' rest).map (·.1)).getD rest <+: rest := by
      cases hcut : Text.cutAt? '{' rest with
      | none => exact ⟨Text.not_mem_of_cutAt?_eq_none hcut, List.prefix_refl rest⟩
      | some found =>
        obtain ⟨before, after⟩ := found
        obtain ⟨hsplit, hbefore⟩ := Text.cutAt?_eq_some hcut
        exact ⟨hbefore, ⟨'{' :: after, hsplit.symm⟩⟩
    have hsub := Text.isInfix_trim (((Text.cutAt? '{' rest).map (·.1)).getD rest)
    have hsuffix : rest <:+ line := ⟨word, (Text.after?_eq_some_iff.1 hrest).symm⟩
    exact ⟨hne, Text.trim_trim _, fun hmem => hfront.1 (hsub.subset hmem),
      hline.of_isInfix ((hsub.trans hfront.2.isInfix).trans hsuffix.isInfix)⟩

theorem provider_of_provider? {line provider : List Char} (h : provider? line = some provider) :
    '"' ∉ provider ∧ provider <:+: line := by
  induction line with
  | nil => cases h
  | cons c line ih =>
    rw [provider?] at h
    cases hhere : providerHere? (c :: line) with
    | none =>
      rw [hhere, Option.none_or] at h
      obtain ⟨hquote, hsub⟩ := ih h
      exact ⟨hquote, hsub.trans (List.suffix_cons c line).isInfix⟩
    | some value =>
      rw [hhere, Option.some_or] at h
      obtain rfl := Option.some.inj h
      simp only [providerHere?, Option.bind_eq_bind, Option.bind_eq_some_iff] at hhere
      obtain ⟨a, ha, b, hb, d, hd, ⟨before, after⟩, hcut, hvalue⟩ := hhere
      obtain rfl : before = value := by simpa using hvalue
      obtain ⟨hsplit, hquote⟩ := Text.cutAt?_eq_some hcut
      have hd' : d <:+ c :: line := by
        have h₁ : a <:+ c :: line := ⟨_, (Text.after?_eq_some_iff.1 ha).symm⟩
        have h₂ : b <:+ a.dropWhile isBlank := ⟨_, (Text.after?_eq_some_iff.1 hb).symm⟩
        have h₃ : d <:+ b.dropWhile isBlank := ⟨_, (Text.after?_eq_some_iff.1 hd).symm⟩
        exact ((h₃.trans (List.dropWhile_suffix _)).trans
          (h₂.trans (List.dropWhile_suffix _))).trans h₁
      have hfront : before <+: d := ⟨'"' :: after, hsplit.symm⟩
      exact ⟨hquote, hfront.isInfix.trans hd'.isInfix⟩

theorem Fits.addLine {h : Header} (hfits : h.Fits) (word : List Char) {line : List Char}
    (hline : NoBreak line) : (addLine word h line).Fits := by
  rw [Header.addLine]
  split
  next name hname =>
    refine ⟨fun n hn => ?_, hfits.provider⟩
    obtain rfl : name = some n := hn
    split at hname
    · exact name_of_nameAfter? hline hname
    · cases hname
  next =>
    refine ⟨hfits.name, fun p hp => ?_⟩
    cases hprovider : h.provider with
    | some provider =>
      have hp' : provider = p := by simpa [hprovider] using hp
      exact hfits.provider p (by rw [hprovider, hp']; rfl)
    | none =>
      have hp' : provider? line = some p := by simpa [hprovider] using hp
      obtain ⟨hquote, hsub⟩ := provider_of_provider? hp'
      exact ⟨hquote, hline.of_isInfix hsub⟩

theorem fits_ofLines (word : String) {ls : List (List Char)} (h : ∀ l ∈ ls, NoBreak l) :
    (ofLines word ls).Fits := by
  have hfold : ∀ (ls : List (List Char)) (header : Header), header.Fits → (∀ l ∈ ls, NoBreak l) →
      (ls.foldl (addLine word.toList) header).Fits := by
    intro ls
    induction ls with
    | nil => exact fun header hheader _ => hheader
    | cons l ls ih =>
      intro header hheader hls
      obtain ⟨hl, hrest⟩ := List.forall_mem_cons.1 hls
      exact ih _ (hheader.addLine word.toList hl) hrest
  exact hfold ls {} ⟨by simp, by simp⟩ h

/-- A header that was found, with defaults for what was not, can be written again. -/
theorem Fits.headerFits {h : Header} (hfits : h.Fits) {name provider : String}
    (hdefault : HeaderFits name provider) : HeaderFits ((h.name.map String.ofList).getD name)
      ((h.provider.map String.ofList).getD provider) := by
  obtain ⟨foundName, foundProvider⟩ := h
  cases foundName with
  | none =>
    cases foundProvider with
    | none => exact hdefault
    | some p =>
      obtain ⟨hquote, hbreak⟩ := hfits.provider p rfl
      exact { hdefault with
        noQuote := by simpa using hquote
        provider_noBreak := by simpa using hbreak }
  | some n =>
    obtain ⟨hne, htrimmed, hbrace, hnameBreak⟩ := hfits.name n rfl
    have hname : HeaderFits (String.ofList n) provider :=
      ⟨by simpa using hne, by simpa using htrimmed, by simpa using hbrace, by simpa using hnameBreak,
        hdefault.noQuote, hdefault.provider_noBreak⟩
    cases foundProvider with
    | none => exact hname
    | some p =>
      obtain ⟨hquote, hbreak⟩ := hfits.provider p rfl
      exact { hname with
        noQuote := by simpa using hquote
        provider_noBreak := by simpa using hbreak }

end Header

namespace Schema

/-- The headers of a schema that was read are read back. -/
theorem headerFits_of_parse {t : List Char} {s : Schema} (h : Schema.parse t = .ok s) :
    HeaderFits s.generator.name s.generator.provider ∧
      HeaderFits s.datasource.name s.datasource.provider := by
  obtain ⟨hgenerator, hdatasource, -⟩ := exists_of_parse h
  have hbreak : ∀ block, ∀ l ∈ Section.linesOf block (lines t), NoBreak l :=
    fun block l hl => Text.noBreak_of_mem_lines (Section.of_mem_linesOf hl).1
  have hstandard : HeaderFits ({} : Generator).name ({} : Generator).provider ∧
      HeaderFits ({} : Datasource).name ({} : Datasource).provider := by decide
  rw [hgenerator, hdatasource]
  exact ⟨(Header.fits_ofLines _ (hbreak .generator)).headerFits hstandard.1,
    (Header.fits_ofLines _ (hbreak .datasource)).headerFits hstandard.2⟩

/-- A fragment is a line that starts a model, the word at its start taken off, and lines behind it
that start none. -/
structure Fragment (ls fragment : List (List Char)) : Prop where
  first : ∀ l ∈ fragment.head?, ∃ k ∈ ls, l <:+ k
  rest : ∀ l ∈ fragment.tail, l ∈ ls ∧ startsWith "model ".toList l = false

theorem fragment_of_mem_fragmentLines {ls fragment : List (List Char)}
    (h : fragment ∈ fragmentLines ls) : Fragment ls fragment := by
  have hall : ∀ ls : List (List Char), ∃ first others, fragmentLines ls = first :: others ∧
      (∀ l ∈ first, l ∈ ls ∧ startsWith "model ".toList l = false) ∧
        ∀ fragment ∈ others, Fragment ls fragment := by
    intro ls
    induction ls with
    | nil => exact ⟨[], [], rfl, by simp, by simp⟩
    | cons line ls ih =>
      obtain ⟨first, others, hsplit, hfirst, hothers⟩ := ih
      have hlater : ∀ fragment ∈ others, Fragment (line :: ls) fragment := fun fragment hf =>
        ⟨fun l hl => by
          obtain ⟨k, hk, hsuffix⟩ := (hothers fragment hf).first l hl
          exact ⟨k, List.mem_cons_of_mem _ hk, hsuffix⟩,
        fun l hl => ⟨List.mem_cons_of_mem _ ((hothers fragment hf).rest l hl).1,
          ((hothers fragment hf).rest l hl).2⟩⟩
      rw [fragmentLines, hsplit]
      cases hafter : Text.after? "model ".toList line with
      | some tail =>
        refine ⟨[], (tail :: first) :: others, rfl, by simp, fun fragment hf => ?_⟩
        rcases List.mem_cons.1 hf with rfl | hf
        · refine ⟨fun l hl => ?_, fun l hl => ⟨List.mem_cons_of_mem _ (hfirst l hl).1,
            (hfirst l hl).2⟩⟩
          obtain rfl : tail = l := by simpa using hl
          exact ⟨line, List.mem_cons_self, ⟨_, (Text.after?_eq_some_iff.1 hafter).symm⟩⟩
        · exact hlater fragment hf
      | none =>
        refine ⟨line :: first, others, rfl, fun l hl => ?_, hlater⟩
        rcases List.mem_cons.1 hl with rfl | hl
        · exact ⟨List.mem_cons_self, Text.after?_eq_none_iff.1 hafter⟩
        · exact ⟨List.mem_cons_of_mem _ (hfirst l hl).1, (hfirst l hl).2⟩
  obtain ⟨first, others, hsplit, hfirst, hothers⟩ := hall ls
  rw [hsplit] at h
  rcases List.mem_cons.1 h with rfl | h
  · exact ⟨fun l hl => ⟨l, (hfirst l (List.mem_of_head? hl)).1, List.suffix_refl l⟩,
      fun l hl => hfirst l (List.mem_of_mem_tail hl)⟩
  · exact hothers fragment h

end Schema

/-! ### Names over several lines -/

/-- No line of the text but the first opens a header block or starts a model. -/
def Clear (s : List Char) : Prop := ∀ x y, s = x ++ '\n' :: y → Section.Inside y

theorem Section.Inside.of_append {s t : List Char} (h : Section.Inside (s ++ t)) :
    Section.Inside s := by
  have hfront : ∀ mark : List Char, startsWith mark (s ++ t) = false →
      startsWith mark s = false := by
    intro mark hnone
    cases hs : startsWith mark s with
    | false => rfl
    | true =>
      obtain ⟨rest, rfl⟩ := Text.startsWith_iff.1 hs
      rw [List.append_assoc, Text.startsWith_append] at hnone
      cases hnone
  exact ⟨⟨hfront _ h.generator, hfront _ h.datasource⟩, hfront _ h.model⟩

theorem Section.Inside.append_newline {s : List Char} (h : Section.Inside s) (t : List Char) :
    Section.Inside (s ++ '\n' :: t) := by
  refine ⟨⟨?_, ?_⟩, ?_⟩
  · rw [Text.startsWith_append_cons (by decide)]
    exact h.generator
  · rw [Text.startsWith_append_cons (by decide)]
    exact h.datasource
  · rw [Text.startsWith_append_cons (by decide)]
    exact h.model

theorem Clear.of_isInfix {s t : List Char} (ht : Clear t) (h : s <:+: t) : Clear s := by
  obtain ⟨a, b, hab⟩ := h
  intro x y hxy
  refine Section.Inside.of_append (t := b) (ht (a ++ x) (y ++ b) ?_)
  rw [← hab, hxy]
  simp

theorem clear_joined {ls : List (List Char)} (hbreak : ∀ l ∈ ls, NoBreak l)
    (h : ∀ l ∈ ls.tail, Section.Inside l) : Clear (joined ['\n'] ls) := by
  induction ls with
  | nil => exact fun x y hxy => by simp [joined] at hxy
  | cons l ls ih =>
    have hnone : '\n' ∉ l := fun hmem => by
      have := hbreak l List.mem_cons_self _ hmem
      cases this
    cases ls with
    | nil =>
      intro x y hxy
      rw [joined] at hxy
      exact absurd (by rw [hxy]; simp) hnone
    | cons next ls =>
      have hnext : Section.Inside (joined ['\n'] (next :: ls)) := by
        have hfirst := h next List.mem_cons_self
        cases ls with
        | nil => exact hfirst
        | cons after ls =>
          rw [joined, List.append_assoc]
          exact hfirst.append_newline _
      have hrest : Clear (joined ['\n'] (next :: ls)) :=
        ih (fun k hk => hbreak k (List.mem_cons_of_mem _ hk)) fun k hk =>
          h k (List.mem_cons_of_mem _ hk)
      intro x y hxy
      rw [joined, List.append_assoc] at hxy
      rcases List.append_eq_append_iff.1 hxy with ⟨z, rfl, hz⟩ | ⟨z, rfl, hz⟩
      · cases z with
        | nil =>
          obtain ⟨-, rfl⟩ := List.cons.inj hz
          exact hnext
        | cons c z =>
          obtain ⟨-, hz⟩ := List.cons.inj hz
          exact hrest z y hz
      · cases z with
        | nil =>
          obtain ⟨-, rfl⟩ := List.cons.inj hz
          exact hnext
        | cons c z =>
          obtain ⟨rfl, -⟩ := List.cons.inj hz
          exact absurd (by simp) hnone

/-- A line feed in a text with a brace behind it stands in the text. -/
theorem exists_of_append_brace {s x y : List Char} (h : s ++ [' ', '{'] = x ++ '\n' :: y) :
    ∃ z, s = x ++ '\n' :: z ∧ y = z ++ [' ', '{'] := by
  rcases List.append_eq_append_iff.1 h with ⟨z, rfl, hz⟩ | ⟨z, rfl, hz⟩
  · have hmem : '\n' ∈ [' ', '{'] := by
      rw [hz]
      simp
    exact absurd hmem (by decide)
  · cases z with
    | nil => cases hz
    | cons c z =>
      obtain ⟨rfl, rfl⟩ := List.cons.inj hz
      exact ⟨z, rfl, rfl⟩

theorem Section.Inside.stays_append_brace {s : List Char} (h : Section.Inside s) :
    Section.Stays (s ++ [' ', '{']) := by
  refine ⟨?_, ?_⟩
  · rw [Text.startsWith_append_cons (by decide)]
    exact h.generator
  · rw [Text.startsWith_append_cons (by decide)]
    exact h.datasource

/-- A line that starts no model starts one with a brace behind it only where it is the word
alone. -/
theorem eq_model_of_append_brace {s : List Char} (hs : startsWith "model ".toList s = false)
    (h : startsWith "model ".toList (s ++ [' ', '{']) = true) : s = "model".toList := by
  have hword : "model ".toList = "model".toList ++ [' '] := by simp
  have hlong : ∀ t, s ≠ "model ".toList ++ t := by
    rintro t rfl
    rw [Text.startsWith_append] at hs
    cases hs
  obtain ⟨rest, hrest⟩ := Text.startsWith_iff.1 h
  rcases List.append_eq_append_iff.1 hrest with ⟨t, hmodel, ht⟩ | ⟨t, hmodel, -⟩
  · cases t with
    | nil => exact absurd (by rw [hmodel, List.append_nil, List.append_nil]) (hlong [])
    | cons c t =>
      obtain ⟨rfl, -⟩ := List.cons.inj ht
      rw [hword] at hmodel
      rcases List.append_eq_append_iff.1 hmodel with ⟨u, hu, hblank⟩ | ⟨u, hu, hblank⟩
      · obtain rfl : u = [] := by
          have := congrArg List.length hblank
          simp only [List.length_append, List.length_cons, List.length_nil] at this
          exact List.length_eq_zero_iff.1 (by omega)
        rw [hu, List.append_nil]
      · cases u with
        | nil => rw [hu, List.append_nil]
        | cons d u =>
          obtain ⟨rfl, -⟩ := List.cons.inj hblank
          have hmem : ' ' ∈ "model".toList := by
            rw [hu]
            simp
          exact absurd hmem (by decide)
  · exact absurd hmodel (hlong t)

namespace Model

/-! ### Models that were read -/

theorem Given.oneLine {f : Field} (h : Given f) : f.OneLine := by
  have hread := h.read
  obtain ⟨line, g, hbreak, -, hparse, hself⟩ := h
  obtain ⟨rest, name, type, ws, hextract, hwords, -, hattributes⟩ := Field.exists_of_parse hparse
  have hunique : f.unique = g.unique := by rw [hself]
  have hrelation : f.relation = g.relation := by rw [hself]
  refine ⟨hread.name.2.noBreak, hread.type.2.noBreak, fun u hu n hn => ?_,
    fun e he => (hread.default e he).noBreak, fun t ht => (hread.native t ht).1.noBreak,
    fun r hr => ?_⟩
  · rw [← hunique, hu] at hextract
    obtain ⟨pre, mark, after, hline, -, hspells⟩ := UniqueFlag.exists_of_extractFrom hextract
    refine hbreak.of_isInfix ((hspells.isInfix hn).2.trans ⟨pre, after, hline.symm⟩)
  · rw [hrelation] at hr
    have hsaid := Field.saidBy_of_withAttributes hattributes
    obtain ⟨text, htext, -, hfound⟩ := (hsaid.relation r hr).resolve_left (by
      simp [Field.ofNameAndType])
    exact Relation.noBreak_render_of_parse hfound
      (Field.singleSpaced_of_mem_ofWords (l := [name, type]) hwords htext).1.noBreak

/-- A model as reading gives it, its name in front of a brace and perhaps over several lines, its
fields and directives from lines of their own, its keys marked and its widths set. -/
structure ReadOff (m : Model) : Prop where
  name_ne_nil : m.name.toList ≠ []
  trimmed : Trimmed m.name.toList
  noBrace : '{' ∉ m.name.toList
  name_break : ∀ c ∈ m.name.toList, c = '\n' ∨ Text.isLineBreak c = false
  clear : Clear m.name.toList
  fields : ∀ f ∈ m.fields, Given f
  directives : ∀ d ∈ m.directives, DirectiveFits d.toList ∧ NoBreak d.toList
  marked : markFirst m.directiveIds m.fields = m.fields
  widths : m.recomputeWidths = m

/-- The last line of the name leaves a brace behind it the word that starts a model. -/
def OpensModel (m : Model) : Prop := "\nmodel".toList <:+ m.name.toList

instance (m : Model) : Decidable m.OpensModel := inferInstanceAs (Decidable (_ <:+ _))

theorem noBreak_headerLines {m : Model}
    (h : ∀ c ∈ m.name.toList, c = '\n' ∨ Text.isLineBreak c = false) :
    ∀ l ∈ m.headerLines, NoBreak l := by
  intro l hl c hc
  obtain ⟨hnone, hmem⟩ := Text.of_mem_cutWhere hl c hc
  rcases List.mem_append.1 hmem with hname | hopen
  · exact (h c hname).resolve_left (by simpa using hnone)
  · have hall : NoBreak [' ', '{'] := by decide
    exact hall c hopen

/-- The header of a model that was read stays in the section, and starts another model only in the
last line of its name. -/
theorem stays_headerLines {m : Model} (h : Clear m.name.toList) {l : List Char}
    (hl : l ∈ m.headerLines.tail) :
    Section.Stays l ∧ (startsWith "model ".toList l = true → m.OpensModel) := by
  obtain ⟨x, c, y, hc, hsplit, hy⟩ := Text.exists_of_mem_tail_cutWhere hl
  obtain rfl : c = '\n' := by simpa using hc
  obtain ⟨z, hname, rfl⟩ := exists_of_append_brace hsplit
  have hinside := h x z hname
  rcases hy with rfl | ⟨d, rest, hd, hy⟩
  · refine ⟨hinside.stays_append_brace, fun hstart => ?_⟩
    rw [OpensModel, hname, eq_model_of_append_brace hinside.model hstart]
    exact ⟨x, by simp⟩
  · obtain rfl : d = '\n' := by simpa using hd
    obtain ⟨t, rfl, -⟩ := exists_of_append_brace hy
    have hfirst := hinside.of_append
    refine ⟨hfirst.toStays, fun hstart => ?_⟩
    rw [hfirst.model] at hstart
    cases hstart

theorem ReadOff.enclosed {m : Model} (h : m.ReadOff) : m.Enclosed where
  name_ne_nil := h.name_ne_nil
  trimmed := h.trimmed
  noBrace := h.noBrace
  header_noBreak := noBreak_headerLines h.name_break
  body_noBreak l hl := by
    rcases mem_renderBody hl with ⟨f, hf, rfl⟩ | rfl | ⟨d, hd, rfl⟩
    · exact Field.noBreak_line (h.fields f hf).oneLine _ _ _
    · exact fun c hc => absurd hc List.not_mem_nil
    · exact (h.directives d hd).2
  header_stays l hl := (stays_headerLines h.clear hl).1
  body_inside := inside_renderBody fun d hd => (h.directives d hd).1

theorem ReadOff.framed {m : Model} (h : m.ReadOff) (hopens : ¬m.OpensModel) : m.Framed where
  toEnclosed := h.enclosed
  header_model l hl := by
    cases hstart : startsWith "model ".toList l with
    | false => rfl
    | true => exact absurd ((stays_headerLines h.clear hl).2 hstart) hopens

/-- Marking once more changes nothing. -/
theorem markFirst_markFirst (names : List String) (fields : List Field) :
    markFirst names (markFirst names fields) = markFirst names fields := by
  induction fields generalizing names with
  | nil => rfl
  | cons f rest ih =>
    rw [markFirst, markFirst, ih]
    cases f.isId <;> simp

end Model

namespace Schema

/-- Each model of a schema that was read is as reading gives it. -/
theorem readOff_of_parse {t : List Char} {s : Schema} (h : Schema.parse t = .ok s) {m : Model}
    (hm : m ∈ s.models) : m.ReadOff := by
  obtain ⟨fragment, hfragment, hparse⟩ := exists_of_mem_parseModels (exists_of_parse h).2.2 hm
  obtain ⟨ls, hls, rfl⟩ := List.mem_map.1 hfragment
  obtain ⟨header, body, hcut, hname, hne, hdirectives, hfields, hwidths⟩ :=
    Model.exists_of_parse hparse
  obtain ⟨hsplit, hbrace⟩ := Text.cutAt?_eq_some hcut
  have hlines := fragment_of_mem_fragmentLines hls
  have hsection : ∀ l ∈ Section.linesOf .models (lines t), NoBreak l :=
    fun l hl => Text.noBreak_of_mem_lines (Section.of_mem_linesOf hl).1
  have hbreak : ∀ l ∈ ls, NoBreak l := by
    intro l hl
    cases ls with
    | nil => exact absurd hl List.not_mem_nil
    | cons first rest =>
      rcases List.mem_cons.1 hl with rfl | hl
      · obtain ⟨k, hk, hsuffix⟩ := hlines.first l rfl
        exact (hsection k hk).of_isInfix hsuffix.isInfix
      · exact hsection l (hlines.rest l hl).1
  have hinside : ∀ l ∈ ls.tail, Section.Inside l := fun l hl =>
    ⟨Section.stays_of_mem_linesOf (hlines.rest l hl).1, (hlines.rest l hl).2⟩
  have hheader : header <:+: joined ['\n'] ls := ⟨[], '{' :: body, by rw [hsplit]; simp⟩
  have hsub : m.name.toList <:+: joined ['\n'] ls := by
    rw [hname]
    exact (Text.isInfix_trim header).trans hheader
  refine ⟨by rw [hname]; exact hne, by rw [hname]; exact Text.trim_trim header, fun hmem => ?_,
    fun c hc => ?_, (clear_joined hbreak hinside).of_isInfix hsub, fun f hf => given_of_parse h hm hf,
    fun d hd => ?_, ?_, hwidths⟩
  · rw [hname] at hmem
    exact hbrace ((Text.isInfix_trim header).subset hmem)
  · have hall : ∀ c ∈ joined ['\n'] ls, c = '\n' ∨ Text.isLineBreak c = false :=
      Text.forall_mem_joined (by simp) fun l hl c hc => Or.inr (hbreak l hl c hc)
    exact hall c (hsub.subset hc)
  · rw [hdirectives] at hd
    obtain ⟨line, hline, hfound⟩ := List.mem_filterMap.1 hd
    obtain ⟨hfront, hfits⟩ := Model.directiveFits_of_directiveOf? hfound
    exact ⟨hfits, (Text.noBreak_of_mem_lines hline).of_isInfix hfront.isInfix⟩
  · rw [hfields, Model.markFirst_markFirst]

end Schema

end CatalogSync
