import CatalogSync.Proofs.Schema.ModelText

/-!
What reading gives. A field that was read has the attributes that its line holds, so its name and
its type are words and its texts are words a space apart; the fields of a model that was read are
those of its lines, with the marks that the key directives add.
-/

namespace CatalogSync

open Text (isBlank trim joined words lines after? NoBlank SingleSpaced NoTrailingBlank NoBreak)
open UniqueFlag (extract)

namespace Field

/-! ### Where the parts of a field come from -/

theorem eq_defaultText_of_kindOf {text e : List Char} (h : kindOf text = .default e) :
    text = defaultText e := by
  unfold kindOf at h
  split at h
  · cases h
  · split at h
    · cases h
    · split at h
      next rest hrest =>
        split at h
        next hlast =>
          obtain rfl : rest.dropLast = e := by simpa using h
          have htext := Text.after?_eq_some_iff.1 hrest
          obtain ⟨ys, rfl⟩ := List.getLast?_eq_some_iff.1 hlast
          rw [htext, defaultText_eq, List.append_assoc, List.dropLast_concat]
        next => cases h
      next => cases h

theorem eq_nativeText_of_kindOf {text t : List Char} (h : kindOf text = .native t) :
    text = nativeText t := by
  unfold kindOf at h
  split at h
  next type htype =>
    obtain rfl : type = t := by simpa using h
    exact Text.after?_eq_some_iff.1 htype
  · split at h
    · cases h
    · split at h
      · split at h <;> cases h
      · cases h

theorem startsWith_of_kindOf {text : List Char} (h : kindOf text = .relation) :
    Text.startsWith "@relation".toList text = true := by
  unfold kindOf at h
  split at h
  · cases h
  · split at h
    next hstart => exact hstart
    · split at h
      · split at h <;> cases h
      · cases h

/-- What an attribute adds to a field: a mark of a key, a native type, a default expression or a relation,
the last one of its kind counting; and an attribute of another kind nothing. -/
inductive Adds (g : Field) : Attribute → Field → Prop
  | id : Adds g (.bare "@id".toList) { g with isId := true }
  | native {a : Attribute} {t : List Char} (ha : a.text = nativeText t) :
      Adds g a { g with nativeType := some (String.ofList t) }
  | default (e : List Char) :
      Adds g (.bracketed (defaultText e)) { g with defaultExpr := some (String.ofList e) }
  | relation {text : List Char} {r : Relation}
      (hword : Text.startsWith "@relation".toList text = true) (hparse : Relation.parse text = .ok r) :
      Adds g (.bracketed text) { g with relation := some r }
  | nothing (a : Attribute) : Adds g a g

theorem adds_of_withAttribute {g f : Field} {a : Attribute} (h : g.withAttribute a = .ok f) :
    Adds g a f := by
  cases a with
  | bare word =>
    rw [withAttribute] at h
    split at h
    next hid =>
      obtain rfl := Except.ok.inj h
      rw [hid]
      exact .id
    next =>
      split at h <;> obtain rfl := Except.ok.inj h
      next t ht => exact .native (Text.after?_eq_some_iff.1 ht)
      next => exact .nothing _
  | bracketed text =>
    rw [withAttribute] at h
    split at h
    next t ht =>
      obtain rfl := Except.ok.inj h
      exact .native (eq_nativeText_of_kindOf ht)
    next hr =>
      cases hparse : Relation.parse text with
      | error e =>
        rw [hparse] at h
        cases h
      | ok r =>
        rw [hparse] at h
        obtain rfl := Except.ok.inj h
        exact .relation (startsWith_of_kindOf hr) hparse
    next e he =>
      obtain rfl := Except.ok.inj h
      rw [eq_defaultText_of_kindOf he]
      exact .default e
    next =>
      obtain rfl := Except.ok.inj h
      exact .nothing _

/-- The first attribute is added, and then the others are. -/
theorem exists_of_withAttributes_cons {g f : Field} {a : Attribute} {as : List Attribute}
    (h : g.withAttributes (a :: as) = .ok f) :
    ∃ k, Adds g a k ∧ k.withAttributes as = .ok f := by
  rw [withAttributes] at h
  cases ha : g.withAttribute a with
  | error e =>
    rw [ha] at h
    cases h
  | ok k =>
    rw [ha] at h
    exact ⟨k, adds_of_withAttribute ha, h⟩

/-- What attributes say about a field that its name, its type and the mark for unique values do not:
each part comes from one of the attributes or was there before. -/
structure SaidBy (g : Field) (as : List Attribute) (f : Field) : Prop where
  same : f = { g with
    isId := f.isId, defaultExpr := f.defaultExpr, nativeType := f.nativeType, relation := f.relation }
  isId : f.isId = true → g.isId = true ∨ .bare "@id".toList ∈ as
  default : ∀ e ∈ f.defaultExpr, e ∈ g.defaultExpr ∨ .bracketed (defaultText e.toList) ∈ as
  native : ∀ t ∈ f.nativeType, t ∈ g.nativeType ∨ ∃ a ∈ as, a.text = nativeText t.toList
  relation : ∀ r ∈ f.relation, r ∈ g.relation ∨ ∃ text, .bracketed text ∈ as ∧
    Text.startsWith "@relation".toList text = true ∧ Relation.parse text = .ok r

theorem SaidBy.refl (g : Field) (as : List Attribute) : SaidBy g as g :=
  ⟨rfl, fun h => Or.inl h, fun _ h => Or.inl h, fun _ h => Or.inl h, fun _ h => Or.inl h⟩

theorem SaidBy.append {g k f : Field} {as bs : List Attribute} (hk : SaidBy g as k)
    (hf : SaidBy k bs f) : SaidBy g (as ++ bs) f := by
  refine ⟨?_, fun hid => ?_, fun e he => ?_, fun t ht => ?_, fun r hr => ?_⟩
  · rw [hf.same, hk.same]
  · rcases hf.isId hid with hid | hmem
    · exact (hk.isId hid).imp_right fun hmem => List.mem_append_left _ hmem
    · exact Or.inr (List.mem_append_right _ hmem)
  · rcases hf.default e he with he | hmem
    · exact (hk.default e he).imp_right fun hmem => List.mem_append_left _ hmem
    · exact Or.inr (List.mem_append_right _ hmem)
  · rcases hf.native t ht with ht | ⟨a, ha, htext⟩
    · exact (hk.native t ht).imp_right fun ⟨a, ha, htext⟩ =>
        ⟨a, List.mem_append_left _ ha, htext⟩
    · exact Or.inr ⟨a, List.mem_append_right _ ha, htext⟩
  · rcases hf.relation r hr with hr | ⟨text, htext, hparse⟩
    · exact (hk.relation r hr).imp_right fun ⟨text, htext, hparse⟩ =>
        ⟨text, List.mem_append_left _ htext, hparse⟩
    · exact Or.inr ⟨text, List.mem_append_right _ htext, hparse⟩

theorem Adds.saidBy {g f : Field} {a : Attribute} (h : Adds g a f) : SaidBy g [a] f := by
  cases h with
  | id =>
    exact ⟨rfl, fun _ => .inr (List.mem_singleton_self _), fun _ h => .inl h, fun _ h => .inl h,
      fun _ h => .inl h⟩
  | @native _ t ha =>
    refine ⟨rfl, fun h => .inl h, fun _ h => .inl h,
      fun t' ht' => .inr ⟨a, List.mem_singleton_self _, ?_⟩, fun _ h => .inl h⟩
    obtain rfl : String.ofList t = t' := by simpa using ht'
    rw [ha, String.toList_ofList]
  | default e =>
    refine ⟨rfl, fun h => .inl h, fun e' he' => .inr ?_, fun _ h => .inl h, fun _ h => .inl h⟩
    obtain rfl : String.ofList e = e' := by simpa using he'
    rw [String.toList_ofList]
    exact List.mem_singleton_self _
  | @relation text r hword hparse =>
    refine ⟨rfl, fun h => .inl h, fun _ h => .inl h, fun _ h => .inl h,
      fun r' hr' => .inr ⟨text, List.mem_singleton_self _, hword, ?_⟩⟩
    obtain rfl : r = r' := by simpa using hr'
    exact hparse
  | nothing => exact SaidBy.refl g _

theorem saidBy_of_withAttributes {g f : Field} {as : List Attribute}
    (h : g.withAttributes as = .ok f) : SaidBy g as f := by
  induction as generalizing g with
  | nil =>
    obtain rfl := Except.ok.inj h
    exact SaidBy.refl g _
  | cons a as ih =>
    obtain ⟨k, hadds, hrest⟩ := exists_of_withAttributes_cons h
    exact hadds.saidBy.append (ih hrest)

/-- A line that gives a field holds its name, its type and its attributes as words, with all
brackets closed. -/
theorem exists_of_parse {line : List Char} {f : Field} (h : Field.parse line = .ok (some f)) :
    ∃ rest name type ws, extract line = (rest, f.unique) ∧ words rest = name :: type :: ws ∧
      (Attributes.ofWords ws).isOpen = false ∧
      (ofNameAndType name type f.unique).withAttributes (Attributes.ofWords ws).closed = .ok f := by
  obtain ⟨rest, unique, hextract⟩ : ∃ rest unique, extract line = (rest, unique) := ⟨_, _, rfl⟩
  rcases hwords : words rest with _ | ⟨name, _ | ⟨type, ws⟩⟩
  · rw [Field.parse, hextract] at h
    simp [hwords] at h
  · rw [Field.parse, hextract] at h
    simp [hwords] at h
  · rw [parse_of_words hextract hwords] at h
    cases hread : (ofNameAndType name type unique).withAttributes (Attributes.ofWords ws).closed with
    | error e =>
      rw [hread] at h
      cases h
    | ok g =>
      rw [hread] at h
      have hfound : (if (Attributes.ofWords ws).isOpen then none else some g) = some f :=
        Except.ok.inj h
      cases hopen : (Attributes.ofWords ws).isOpen with
      | true =>
        rw [hopen] at hfound
        cases hfound
      | false =>
        rw [hopen] at hfound
        obtain rfl : g = f := by simpa using hfound
        have hunique : g.unique = unique := by rw [(saidBy_of_withAttributes hread).same]; rfl
        rw [← hunique] at hextract hread
        exact ⟨rest, name, type, ws, hextract, hwords, hopen, hread⟩

/-- The texts of a field that was read: its name and its type are words, its default expression
and its native type are words a space apart, the last with no space behind it. -/
structure Read (f : Field) : Prop where
  name : f.name.toList ≠ [] ∧ NoBlank f.name.toList
  type : f.type.toList ≠ [] ∧ NoBlank f.type.toList
  isArray : f.isArray = Text.contains TypeRule.arrayMarker.toList f.type.toList
  isRequired : f.isRequired = !Text.contains TypeRule.optionalMarker.toList f.type.toList
  default : ∀ e ∈ f.defaultExpr, SingleSpaced e.toList
  native : ∀ t ∈ f.nativeType, SingleSpaced t.toList ∧ NoTrailingBlank t.toList

theorem Read.inked {f : Field} (h : f.Read) : f.Inked :=
  ⟨h.type.1, h.type.2.noTrailingBlank, fun t ht => (h.native t ht).2⟩

/-- Each attribute of a line is words a space apart. -/
theorem singleSpaced_of_mem_ofWords {line : List Char} {ws l : List (List Char)}
    (hws : words line = l ++ ws) {a : Attribute} (ha : a ∈ (Attributes.ofWords ws).closed) :
    SingleSpaced a.text ∧ NoTrailingBlank a.text := by
  obtain ⟨vs, -, htext, hvs⟩ := Attributes.exists_joined_of_mem_collect ha
  have hspaced := Text.singleSpaced_joined_words (l := vs) fun v hv => by
    refine Text.mem_words (s := line) ?_
    rw [hws]
    exact List.mem_append_right _ ((hvs v hv).resolve_left List.not_mem_nil)
  rw [htext]
  exact ⟨hspaced.1, hspaced.2.2⟩

theorem read_of_parse {line : List Char} {f : Field} (h : Field.parse line = .ok (some f)) :
    f.Read := by
  obtain ⟨rest, name, type, ws, -, hwords, -, hread⟩ := exists_of_parse h
  have hsaid := saidBy_of_withAttributes hread
  have hspaced := fun a => singleSpaced_of_mem_ofWords (l := [name, type]) (a := a) hwords
  have hname : f.name.toList = name := by
    rw [hsaid.same]
    exact String.toList_ofList
  have htype : f.type.toList = type := by
    rw [hsaid.same]
    exact String.toList_ofList
  refine ⟨?_, ?_, ?_, ?_, fun e he => ?_, fun t ht => ?_⟩
  · rw [hname]
    exact Text.mem_words (by rw [hwords]; simp)
  · rw [htype]
    exact Text.mem_words (by rw [hwords]; simp)
  · rw [htype, hsaid.same]
    rfl
  · rw [htype, hsaid.same]
    rfl
  · have hmem := (hsaid.default e he).resolve_left (by simp [ofNameAndType])
    refine (hspaced _ hmem).1.of_isInfix ?_
    exact ⟨"@default(".toList, [')'], rfl⟩
  · obtain ⟨a, ha, htext⟩ := (hsaid.native t ht).resolve_left (by simp [ofNameAndType])
    obtain ⟨hsingle, hlast⟩ := hspaced a ha
    rw [htext] at hsingle hlast
    refine ⟨hsingle.of_isInfix ⟨"@db.".toList, [], by simp [nativeText_eq]⟩, fun c hc => hlast c ?_⟩
    rw [nativeText_eq, Option.mem_def, List.getLast?_append, hc]
    rfl

end Field

namespace Model

/-- A field that some line of a body gives, apart from the marks of key directives. -/
def Given (f : Field) : Prop :=
  ∃ line g, NoBreak line ∧ bodyLine line = .field line ∧ Field.parse line = .ok (some g) ∧
    f = { g with isId := f.isId }

theorem parse_of_fieldOf? {line : List Char} {f : Field} (h : fieldOf? line = some f) :
    bodyLine line = .field line ∧ Field.parse line = .ok (some f) := by
  rw [fieldOf?] at h
  cases hline : bodyLine line with
  | skipped => rw [hline] at h; cases h
  | directive text => rw [hline] at h; cases h
  | field l =>
    have hself : l = line := bodyLine_eq_self hline
    rw [hline] at h
    subst hself
    refine ⟨rfl, ?_⟩
    dsimp only at h
    cases hparse : Field.parse l with
    | error e => rw [hparse] at h; cases h
    | ok found =>
      rw [hparse] at h
      obtain rfl : found = some f := by simpa [Except.toOption] using h
      rfl

theorem directiveFits_of_directiveOf? {line : List Char} {d : String}
    (h : directiveOf? line = some d) : d.toList <+: line ∧ DirectiveFits d.toList := by
  rw [directiveOf?] at h
  cases hline : bodyLine line with
  | skipped => rw [hline] at h; cases h
  | field l => rw [hline] at h; cases h
  | directive text =>
    rw [hline] at h
    obtain rfl : String.ofList text = d := by simpa using h
    rw [String.toList_ofList]
    rw [bodyLine] at hline
    split at hline
    · cases hline
    · split at hline
      next hsigns =>
        obtain rfl := BodyLine.directive.inj hline
        obtain ⟨⟨blank, -, hsplit⟩, hlast⟩ := Text.exists_append_dropTrailing (p := isBlank) line
        obtain ⟨rest, hrest⟩ := Text.startsWith_iff.1 hsigns
        obtain ⟨indent, htrim, hindent⟩ := Text.exists_trimRight_eq (s := line) (by simp [hrest])
        refine ⟨⟨blank, hsplit.symm⟩, hlast, ?_⟩
        rw [htrim, Text.trimLeft, Text.dropWhile_append_of_all hindent, hrest]
        rfl
      next => cases hline

theorem exists_of_mem_markFirst {names : List String} {gs : List Field} {f : Field}
    (h : f ∈ markFirst names gs) : ∃ g ∈ gs, f = { g with isId := f.isId } := by
  induction gs generalizing names with
  | nil => exact absurd h List.not_mem_nil
  | cons g gs ih =>
    rcases List.mem_cons.1 h with rfl | h
    · exact ⟨g, List.mem_cons_self, rfl⟩
    · obtain ⟨k, hk, hf⟩ := ih h
      exact ⟨k, List.mem_cons_of_mem _ hk, hf⟩

/-- A model that was read has the trimmed header as its name, and the directives and the fields of
its lines, marked as the directives say, with widths to match. -/
theorem exists_of_parse {fragment : List Char} {m : Model}
    (h : Model.parse fragment = .ok (some m)) :
    ∃ header body, Text.cutAt? '{' fragment = some (header, body) ∧
      m.name.toList = trim header ∧ trim header ≠ [] ∧
      m.directives = (lines body).filterMap directiveOf? ∧
      m.fields = markFirst m.directiveIds ((lines body).filterMap fieldOf?) ∧
      m.recomputeWidths = m := by
  cases hsplit : split? fragment with
  | none => rw [Model.parse, hsplit] at h; cases h
  | some found =>
    obtain ⟨name, body⟩ := found
    rw [parse_of_split hsplit] at h
    cases hbody : addBody { name := String.ofList name } (lines body) with
    | error e => rw [hbody] at h; cases h
    | ok n =>
      rw [hbody] at h
      obtain rfl : n.finish = m := by simpa [Except.map] using h
      obtain ⟨-, rfl⟩ := addBody_eq_ok_iff.1 hbody
      obtain ⟨⟨header, body'⟩, hcut, hname⟩ := Option.bind_eq_some_iff.1 hsplit
      dsimp only at hname
      split at hname
      · cases hname
      next hne =>
        obtain ⟨rfl, rfl⟩ : trim header = name ∧ body' = body := by simpa using hname
        refine ⟨header, body', hcut, ?_, hne, ?_, ?_, ?_⟩
        · rw [finish_eq]
          exact String.toList_ofList
        · rw [finish_eq]
          rfl
        · rw [finish_eq]
          rfl
        · rw [finish]
          rfl

end Model

namespace Schema

theorem parseModels_cons (fragment : List Char) (texts : List (List Char)) :
    parseModels (fragment :: texts) =
      (Model.parse fragment).bind fun m => (parseModels texts).map (m.toList ++ ·) := by
  rw [parseModels]
  cases Model.parse fragment with
  | error e => rfl
  | ok m => cases parseModels texts <;> rfl

theorem parseModels_cons_eq_ok_iff {fragment : List Char} {texts : List (List Char)} {ms : List Model} :
    parseModels (fragment :: texts) = .ok ms ↔ ∃ m rest, Model.parse fragment = .ok m ∧
      parseModels texts = .ok rest ∧ m.toList ++ rest = ms := by
  rw [parseModels_cons]
  cases Model.parse fragment with
  | error e => simp [Except.bind]
  | ok m => cases parseModels texts <;> simp [Except.bind, Except.map]

theorem exists_of_mem_parseModels {texts : List (List Char)} {ms : List Model}
    (h : parseModels texts = .ok ms) {m : Model} (hm : m ∈ ms) :
    ∃ fragment ∈ texts, Model.parse fragment = .ok (some m) := by
  induction texts generalizing ms with
  | nil =>
    obtain rfl : [] = ms := Except.ok.inj h
    exact absurd hm List.not_mem_nil
  | cons fragment texts ih =>
    obtain ⟨found, rest, hparse, hrest, rfl⟩ := parseModels_cons_eq_ok_iff.1 h
    rcases List.mem_append.1 hm with hm | hm
    · obtain rfl : found = some m := Option.mem_toList.1 hm
      exact ⟨fragment, List.mem_cons_self, hparse⟩
    · obtain ⟨text, htext, hmodel⟩ := ih hrest hm
      exact ⟨text, List.mem_cons_of_mem _ htext, hmodel⟩

theorem exists_of_parse {t : List Char} {s : Schema} (h : Schema.parse t = .ok s) :
    s.generator = Generator.parse (Section.linesOf .generator (lines t)) ∧
      s.datasource = Datasource.parse (Section.linesOf .datasource (lines t)) ∧
      parseModels (fragments (Section.linesOf .models (lines t))) = .ok s.models := by
  rw [Schema.parse] at h
  split at h
  · cases h
  next hmodels =>
    obtain rfl := Except.ok.inj h
    exact ⟨rfl, rfl, hmodels⟩

/-- Each field of a schema that was read is what some line of a model says. -/
theorem given_of_parse {t : List Char} {s : Schema} (h : Schema.parse t = .ok s) {m : Model}
    (hm : m ∈ s.models) {f : Field} (hf : f ∈ m.fields) : Model.Given f := by
  obtain ⟨fragment, -, hparse⟩ := exists_of_mem_parseModels (exists_of_parse h).2.2 hm
  obtain ⟨header, body, -, -, -, -, hfields, -⟩ := Model.exists_of_parse hparse
  rw [hfields] at hf
  obtain ⟨g, hg, hself⟩ := Model.exists_of_mem_markFirst hf
  obtain ⟨line, hline, hfound⟩ := List.mem_filterMap.1 hg
  obtain ⟨hbody, hread⟩ := Model.parse_of_fieldOf? hfound
  exact ⟨line, g, Text.noBreak_of_mem_lines hline, hbody, hread, hself⟩

end Schema

namespace Model

theorem Given.read {f : Field} (h : Given f) : f.Read := by
  obtain ⟨line, g, -, -, hparse, hself⟩ := h
  have hread := Field.read_of_parse hparse
  rw [hself]
  exact ⟨hread.name, hread.type, hread.isArray, hread.isRequired, hread.default, hread.native⟩

end Model

end CatalogSync
