import CatalogSync.Proofs.Collect
import CatalogSync.Proofs.Schema.FieldLine
import CatalogSync.Proofs.Schema.ParsedText

/-!
Models whose body is written again as it was. A model that was read gets the lines of its body back
exactly where each line gives a field that says the same, and the keys that are shown are shown
again: the one key of a model by its own line or by a directive, and no key where there are none or
several, unless the directives make it one.
-/

namespace CatalogSync

open Text (startsWith)

namespace Model

/-- The line of the field is read again as a field with the same name, the same type and the same
attributes; and where it shows the key of the model, that field is a key or the directives name
it. -/
def Keeps (m : Model) (f : Field) : Prop :=
  ∃ g ∈ fieldOf? (m.fieldLine f), g.texts = f.texts ∧
    (f.isId = true → m.idFieldCount = 1 → g.isId = true ∨ f.name ∈ m.directiveIds)

instance (m : Model) (f : Field) : Decidable (m.Keeps f) :=
  inferInstanceAs (Decidable (∃ g ∈ fieldOf? (m.fieldLine f), _))

/-- The marks of keys that fields get from the directives in addition to those that are given. -/
def remarks (m : Model) (given : Field → Bool) : List Bool :=
  (markFirst m.directiveIds (m.fields.map fun f => { f with isId := given f })).map (·.isId)

/-- How many fields the key directives of a model mark. -/
def namedCount (m : Model) : Nat := (m.remarks fun _ => false).count true

/-- Which of some marks of keys the lines show: the one, where there is one. -/
def shown (marks : List Bool) : List Bool := marks.map fun b => b && decide (marks.count true = 1)

theorem idFieldCount_eq (m : Model) : m.idFieldCount = (m.fields.map (·.isId)).count true := by
  rw [idFieldCount, ← List.countP_eq_length_filter, List.count, List.countP_map]
  refine List.countP_congr fun f _ => ?_
  simp

theorem map_isId_shownFields (m : Model) :
    m.shownFields.map (·.isId) = shown (m.fields.map (·.isId)) := by
  rw [shownFields, shown, List.map_map, List.map_map, ← idFieldCount_eq]
  refine List.map_congr_left fun f _ => ?_
  simp

/-! ### Keys shown again -/

theorem shown_of_one {marks : List Bool} (h : marks.count true = 1) : shown marks = marks := by
  rw [shown, h]
  simp

theorem shown_of_ne_one {marks : List Bool} (h : marks.count true ≠ 1) :
    shown marks = List.replicate marks.length false := by
  rw [shown, decide_eq_false h]
  simp

/-- A list of marks shows what one with a single mark shows where it is the same list, and what
others show where it has no mark or several itself. -/
theorem shown_eq_iff {ks ms : List Bool} (hlength : ks.length = ms.length) :
    shown ks = shown ms ↔ if ms.count true = 1 then ks = ms else ks.count true ≠ 1 := by
  have hnone : ∀ n : Nat, (List.replicate n false).count true = 0 := fun n => by
    simp [List.count_replicate]
  split
  next hone =>
    rw [shown_of_one hone]
    by_cases hks : ks.count true = 1
    · rw [shown_of_one hks]
    · rw [shown_of_ne_one hks]
      refine iff_of_false (fun h => ?_) fun h => hks (h ▸ hone)
      rw [← h, hnone] at hone
      cases hone
  next hother =>
    rw [shown_of_ne_one hother]
    by_cases hks : ks.count true = 1
    · rw [shown_of_one hks]
      refine iff_of_false (fun h => ?_) fun h => h hks
      rw [h, hnone] at hks
      cases hks
    · rw [shown_of_ne_one hks, hlength]
      exact iff_of_true rfl hks

/-- Marks depend on the names and on what is marked before. -/
theorem isId_markFirst {names : List String} {gs fs : List Field}
    (hname : gs.map (·.name) = fs.map (·.name)) (hid : gs.map (·.isId) = fs.map (·.isId)) :
    (markFirst names gs).map (·.isId) = (markFirst names fs).map (·.isId) := by
  induction gs generalizing fs names with
  | nil =>
    obtain rfl := List.map_eq_nil_iff.1 hname.symm
    rfl
  | cons g gs ih =>
    cases fs with
    | nil => cases hname
    | cons f fs =>
      obtain ⟨hfirst, hnames⟩ := List.cons.inj hname
      obtain ⟨hmark, hids⟩ := List.cons.inj hid
      dsimp only at hfirst hmark
      rw [markFirst, markFirst, List.map_cons, List.map_cons, hfirst, hmark, ih hnames hids]

theorem length_remarks (m : Model) (given : Field → Bool) :
    (m.remarks given).length = m.fields.length := by
  have hnames := map_markFirst (p := fun f => f.name) (fun _ _ => rfl) m.directiveIds
    (m.fields.map fun f => { f with isId := given f })
  have hlength := congrArg List.length hnames
  rw [List.length_map, List.length_map, List.length_map] at hlength
  rw [remarks, List.length_map, hlength]

/-- The marks are those of the fields where each key is given or named first by the directives. -/
theorem remarks_eq_iff {m : Model} {given : Field → Bool} :
    m.remarks given = m.fields.map (·.isId) ↔ ∀ l f r, m.fields = l ++ f :: r →
      (f.isId = true ↔ given f = true ∨ f.name ∈ m.directiveIds ∧ f.name ∉ l.map (·.name)) := by
  have hclear : (markFirst m.directiveIds (m.fields.map fun f => { f with isId := given f })).map
      (fun f => { f with isId := false }) = m.fields.map fun f => { f with isId := false } := by
    rw [map_markFirst fun _ _ => rfl, List.map_map]
    rfl
  have hfields := map_eq_map_iff_of (p := id) (q := fun f : Field => f.isId)
    (r := fun f : Field => { f with isId := false })
    (l := markFirst m.directiveIds (m.fields.map fun f => { f with isId := given f }))
    (k := m.fields) fun g _ f _ => by
      obtain ⟨name, type, isArray, isRequired, isId, unique, defaultExpr, nativeType, relation⟩ := g
      obtain ⟨name', type', isArray', isRequired', isId', unique', default', native', relation'⟩ := f
      simp only [id, Field.mk.injEq, true_and]
      constructor
      · rintro ⟨h₁, h₂, h₃, h₄, h₅, h₆⟩
        exact ⟨h₅, h₁, h₂, h₃, h₄, h₆⟩
      · rintro ⟨h₅, h₁, h₂, h₃, h₄, h₆⟩
        exact ⟨h₁, h₂, h₃, h₄, h₅, h₆⟩
  rw [List.map_id, List.map_id, and_iff_left hclear] at hfields
  rw [remarks, ← hfields, markFirst_map_eq_iff]

/-- A field that directives name is a key, where no field in front of it has that name. -/
theorem ReadOff.isId_of_named {m : Model} (h : m.ReadOff) {l r : List Field} {f : Field}
    (hsplit : m.fields = l ++ f :: r) (hname : f.name ∈ m.directiveIds)
    (hfirst : f.name ∉ l.map (·.name)) : f.isId = true := by
  have hself : m.fields.map (fun f => { f with isId := f.isId }) = m.fields := List.map_id _
  have hall := (markFirst_map_eq_iff fun f => f.isId).1 (by rw [hself]; exact h.marked)
  exact (hall l f r hsplit).2 (.inr ⟨hname, hfirst⟩)

/-- Where directives name the one key of a model, no field in front of it has its name: that field would be
a key too. -/
theorem ReadOff.not_mem_front {m : Model} (h : m.ReadOff) (hone : m.idFieldCount = 1)
    {l r : List Field} {f : Field} (hsplit : m.fields = l ++ f :: r) (hid : f.isId = true)
    (hname : f.name ∈ m.directiveIds) : f.name ∉ l.map (·.name) := by
  intro hearlier
  obtain ⟨g, hfind⟩ : ∃ g, l.find? (fun g => decide (g.name = f.name)) = some g := by
    obtain ⟨g, hg, hsame⟩ := List.mem_map.1 hearlier
    exact Option.isSome_iff_exists.1 (List.find?_isSome.2 ⟨g, hg, by simpa using hsame⟩)
  obtain ⟨hsame, before, between, rfl, hbefore⟩ := List.find?_eq_some_iff_append.1 hfind
  obtain hsame : g.name = f.name := by simpa using hsame
  have hgid : g.isId = true := by
    refine h.isId_of_named (l := before) (r := between ++ f :: r) (by rw [hsplit]; simp)
      (by rw [hsame]; exact hname) fun hmem => ?_
    obtain ⟨k, hk, hkname⟩ := List.mem_map.1 hmem
    have := hbefore k hk
    simp [hkname, hsame] at this
  rw [idFieldCount, hsplit] at hone
  simp only [List.filter_append, List.filter_cons, hgid, hid, List.length_append, List.length_cons,
    if_true] at hone
  omega

/-- Where the lines that show no key give none, the keys that are shown are shown again where the
one key of a model is given or named, and the directives make no key the only one. -/
theorem ReadOff.shown_remarks_iff {m : Model} (h : m.ReadOff) {given : Field → Bool}
    (hquiet : ∀ f ∈ m.fields, ¬(f.isId ∧ m.idFieldCount = 1) → given f = false) :
    shown (m.remarks given) = shown (m.fields.map (·.isId)) ↔
      (m.idFieldCount ≠ 1 → m.namedCount ≠ 1) ∧ ∀ f ∈ m.fields, f.isId = true →
        m.idFieldCount = 1 → given f = true ∨ f.name ∈ m.directiveIds := by
  rw [shown_eq_iff (by rw [length_remarks, List.length_map]), ← idFieldCount_eq]
  split
  next hone =>
    rw [remarks_eq_iff]
    constructor
    · refine fun hkeys => ⟨fun hne => absurd hone hne, fun f hf hid _ => ?_⟩
      obtain ⟨l, r, hsplit⟩ := List.append_of_mem hf
      exact ((hkeys l f r hsplit).1 hid).imp_right And.left
    · rintro ⟨-, hgiven⟩ l f r hsplit
      have hf : f ∈ m.fields := by
        rw [hsplit]
        simp
      constructor
      · intro hid
        exact (hgiven f hf hid hone).imp_right fun hname =>
          ⟨hname, h.not_mem_front hone hsplit hid hname⟩
      · rintro (hg | hname)
        · by_contra hid
          rw [hquiet f hf fun hshown => hid hshown.1] at hg
          cases hg
        · exact h.isId_of_named hsplit hname.1 hname.2
  next hother =>
    have hclear : m.fields.map (fun f => { f with isId := given f }) =
        m.fields.map fun f => { f with isId := false } :=
      List.map_congr_left fun f hf => by rw [hquiet f hf fun hshown => hother hshown.2]
    have hnone : m.remarks given = m.remarks fun _ => false := by
      rw [remarks, remarks, hclear]
    rw [hnone, ← namedCount]
    exact ⟨fun hcount => ⟨fun _ => hcount, fun f _ _ hone => absurd hone hother⟩,
      fun hcount => hcount.1 hother⟩

/-! ### Lines given again -/

theorem read_of_fieldOf? {line : List Char} {g : Field} (h : fieldOf? line = some g) : g.Read :=
  Field.read_of_parse (parse_of_fieldOf? h).2

/-- The field lines of a model, with the keys that they show. -/
theorem map_fieldLine (m : Model) : m.fields.map m.fieldLine =
    m.shownFields.map fun f => fieldIndent ++ f.render m.nameWidth m.typeWidth 1 := by
  rw [shownFields, List.map_map]
  refine List.map_congr_left fun f _ => ?_
  have hattributes : f.renderAttributes m.idFieldCount = Field.renderAttributes
      { f with isId := decide (f.isId ∧ m.idFieldCount = 1) } 1 := by
    simp [Field.renderAttributes]
  rw [fieldLine, Field.render, Field.renderTail, hattributes]
  rfl

theorem renderBody_eq_append (m : Model) : m.renderBody = m.fields.map m.fieldLine
    ++ if m.directives = [] then [] else [] :: m.directives.map (·.toList) := rfl

/-- Under the same widths fields have the same lines where they say the same and the same keys are
shown. -/
theorem map_fieldLine_eq_iff {n m : Model} (hn : ∀ g ∈ n.fields, g.Read)
    (hm : ∀ f ∈ m.fields, f.Read) (hwidths : n.nameWidth = m.nameWidth ∧ n.typeWidth = m.typeWidth) :
    n.fields.map n.fieldLine = m.fields.map m.fieldLine ↔
      shown (n.fields.map (·.isId)) = shown (m.fields.map (·.isId)) ∧
        n.fields.map Field.texts = m.fields.map Field.texts := by
  have hread : ∀ {k : Model}, (∀ f ∈ k.fields, f.Read) → ∀ f ∈ k.shownFields, f.Read := by
    intro k hk f hf
    obtain ⟨g, hg, rfl⟩ := List.mem_map.1 hf
    exact (hk g hg).withKey _
  have htexts : ∀ k : Model, k.shownFields.map Field.texts = k.fields.map Field.texts := by
    intro k
    rw [shownFields, List.map_map]
    exact List.map_congr_left fun f _ => Field.texts_withKey f _
  have hlines := map_eq_map_iff_of fun g hg f hf =>
    Field.line_eq_iff (hread hn g hg) (hread hm f hf) m.nameWidth m.typeWidth
  rw [map_fieldLine, map_fieldLine, hwidths.1, hwidths.2, hlines, map_isId_shownFields,
    map_isId_shownFields, htexts, htexts]

/-- The field lines of a body stand in front of the first blank line. -/
theorem takeWhile_renderBody (m : Model) :
    m.renderBody.takeWhile (fun l => !l.isEmpty) = m.fields.map m.fieldLine := by
  have hblank : List.takeWhile (fun l : List Char => !l.isEmpty)
      (if m.directives = [] then [] else [] :: m.directives.map (·.toList)) = [] := by
    split <;> rfl
  rw [renderBody_eq_append, List.takeWhile_append_of_pos, hblank, List.append_nil]
  intro l hl
  obtain ⟨f, -, rfl⟩ := List.mem_map.1 hl
  rfl

/-- The field that the line of a field gives; the field itself where the line gives none. -/
def givenBack (m : Model) (f : Field) : Field := (fieldOf? (m.fieldLine f)).getD f

/-- Each field of the model is given by its line with its name, its type and its attributes. -/
def GivesBack (m : Model) : Prop := ∀ f ∈ m.fields,
  fieldOf? (m.fieldLine f) = some (m.givenBack f) ∧ (m.givenBack f).texts = f.texts

theorem givesBack_of_exists {m : Model} (h : ∀ f ∈ m.fields, ∃ g, fieldOf? (m.fieldLine f) = some g ∧
    g.texts = f.texts) : m.GivesBack := by
  intro f hf
  obtain ⟨g, hg, hsame⟩ := h f hf
  have hself : m.givenBack f = g := by rw [givenBack, hg, Option.getD_some]
  rw [hself]
  exact ⟨hg, hsame⟩

/-- A model each of whose fields is given back is read as these fields, marked as its directives
say. -/
theorem ReadOff.reread_eq {m : Model} (h : m.ReadOff) (hread : m.GivesBack) : m.reread = .ok { m with
      fields := markFirst m.directiveIds (m.fields.map m.givenBack) } := by
  have hbody := addBody_renderBody (m := m) (g := m.givenBack)
    (fun f hf => parse_of_fieldOf? (hread f hf).1) fun d hd => (h.directives d hd).1
  have hname : (m.fields.map m.givenBack).map (·.name) = m.fields.map (·.name) := by
    rw [List.map_map]
    exact List.map_congr_left fun f hf => (Field.texts_eq_iff.1 (hread f hf).2).1
  have htype : (m.fields.map m.givenBack).map (·.type) = m.fields.map (·.type) := by
    rw [List.map_map]
    exact List.map_congr_left fun f hf => (Field.texts_eq_iff.1 (hread f hf).2).2.1
  have hnames := congrArg (fun names => widthOf (List.map String.length names)) hname
  have htypes := congrArg (fun types => widthOf (List.map String.length types)) htype
  simp only [List.map_map, Function.comp_def] at hnames htypes
  have hwidths : widthOf (m.fields.map fun f => f.name.length) = m.nameWidth ∧
      widthOf (m.fields.map fun f => f.type.length) = m.typeWidth :=
    ⟨congrArg Model.nameWidth h.widths, congrArg Model.typeWidth h.widths⟩
  rw [reread, hbody]
  simp only [Except.map, finish_eq, recomputeWidths, List.map_map, Function.comp_def, hnames, htypes,
    hwidths]
  rfl

/-- A model each of whose fields is given back has its body written again exactly where the keys
that are shown are shown again. -/
theorem ReadOff.body_again_iff {m : Model} (h : m.ReadOff) (hread : m.GivesBack) :
    (∃ n, m.reread = .ok n ∧ n.renderBody = m.renderBody) ↔
      (m.idFieldCount ≠ 1 → m.namedCount ≠ 1) ∧ ∀ f ∈ m.fields, f.isId = true →
        m.idFieldCount = 1 → (m.givenBack f).isId = true ∨ f.name ∈ m.directiveIds := by
  set n : Model := { m with fields := markFirst m.directiveIds (m.fields.map m.givenBack) } with hn
  have hreread : m.reread = .ok n := h.reread_eq hread
  have hmread : ∀ f ∈ m.fields, f.Read := fun f hf => (h.fields f hf).read
  have hnread : ∀ g ∈ n.fields, g.Read := by
    intro g hg
    obtain ⟨k, hk, hself⟩ := exists_of_mem_markFirst hg
    obtain ⟨f, hf, rfl⟩ := List.mem_map.1 hk
    have hfread := read_of_fieldOf? (hread f hf).1
    rw [hself]
    exact hfread.withKey _
  have htexts : n.fields.map Field.texts = m.fields.map Field.texts := by
    rw [hn, map_markFirst Field.texts_withKey, List.map_map]
    exact List.map_congr_left fun f hf => (hread f hf).2
  have hmarks : n.fields.map (·.isId) = m.remarks fun f => (m.givenBack f).isId := by
    refine isId_markFirst ?_ ?_
    · rw [List.map_map, List.map_map]
      exact List.map_congr_left fun f hf => (Field.texts_eq_iff.1 (hread f hf).2).1
    · rw [List.map_map, List.map_map]
      rfl
  have hquiet : ∀ f ∈ m.fields, ¬(f.isId ∧ m.idFieldCount = 1) → (m.givenBack f).isId = false :=
    fun f hf hshown => Field.isId_eq_false_of_line (hmread f hf).inked
      (parse_of_fieldOf? (hread f hf).1).2 hshown (Field.plainSigns_eq_of_texts (hread f hf).2)
  have hbody : n.renderBody = m.renderBody ↔ n.fields.map n.fieldLine = m.fields.map m.fieldLine := by
    have hdirectives : n.directives = m.directives := rfl
    rw [renderBody_eq_append, renderBody_eq_append, hdirectives, List.append_cancel_right_eq]
  rw [map_fieldLine_eq_iff hnread hmread ⟨rfl, rfl⟩, and_iff_left htexts, hmarks,
    h.shown_remarks_iff hquiet] at hbody
  rw [← hbody, hreread]
  constructor
  · rintro ⟨k, hk, hsame⟩
    rwa [Except.ok.inj hk]
  · exact fun hsame => ⟨n, rfl, hsame⟩

/-- Lines that are the same have the same names and types in their columns, and these give the widths. -/
theorem widths_of_map_fieldLine_eq {m n : Model} (hm : ∀ f ∈ m.fields, f.Read)
    (hn : ∀ f ∈ n.fields, f.Read) (hlines : m.fields.map m.fieldLine = n.fields.map n.fieldLine) :
    m.recomputeWidths.nameWidth = n.recomputeWidths.nameWidth ∧
      m.recomputeWidths.typeWidth = n.recomputeWidths.typeWidth := by
  have htake : ∀ {p : Model}, (∀ f ∈ p.fields, f.Read) →
      p.fields.map ((fun l => (Text.words l).take 2) ∘ p.fieldLine) =
        p.fields.map fun f => [f.name.toList, f.type.toList] := fun hp =>
    List.map_congr_left fun f hf => Field.take_words_line (hp f hf) _ _ _
  have hcolumns := congrArg (List.map fun l => (Text.words l).take 2) hlines
  rw [List.map_map, List.map_map, htake hm, htake hn] at hcolumns
  have hnames := congrArg (List.map fun c : List (List Char) => (c.getD 0 []).length) hcolumns
  have htypes := congrArg (List.map fun c : List (List Char) => (c.getD 1 []).length) hcolumns
  simp only [List.map_map, Function.comp_def, List.getD_cons_zero, List.getD_cons_succ,
    String.length_toList] at hnames htypes
  exact ⟨congrArg widthOf hnames, congrArg widthOf htypes⟩

/-- A body that is written again as it was is read line by line as its fields. -/
theorem ReadOff.givesBack {m n : Model} (h : m.ReadOff) (hreread : m.reread = .ok n)
    (hbody : n.renderBody = m.renderBody) : m.GivesBack := by
  have hfields := congrArg Model.fields (eq_finish_of_reread hreread)
  rw [finish_eq] at hfields
  dsimp only at hfields
  rw [filterMap_fieldOf?_renderBody fun d hd => (h.directives d hd).1] at hfields
  have hmread : ∀ f ∈ m.fields, f.Read := fun f hf => (h.fields f hf).read
  have hnread : ∀ g ∈ n.fields, g.Read := by
    intro g hg
    rw [hfields] at hg
    obtain ⟨f, hf, hself⟩ := exists_of_mem_markFirst hg
    obtain ⟨f', -, hgive⟩ := List.mem_filterMap.1 hf
    rw [hself]
    exact (read_of_fieldOf? hgive).withKey _
  have hlines : n.fields.map n.fieldLine = m.fields.map m.fieldLine := by
    rw [← takeWhile_renderBody, ← takeWhile_renderBody, hbody]
  have hwidths : n.nameWidth = m.nameWidth ∧ n.typeWidth = m.typeWidth := by
    have hself : n.recomputeWidths = n := by
      rw [eq_finish_of_reread hreread, finish]
      rfl
    rw [← hself, ← h.widths]
    exact widths_of_map_fieldLine_eq hnread hmread hlines
  have htexts := ((map_fieldLine_eq_iff hnread hmread hwidths).1 hlines).2
  rw [hfields, map_markFirst Field.texts_withKey] at htexts
  exact givesBack_of_exists (exists_of_map_filterMap_eq htexts)

/-- The body of a model that was read is written again as it was exactly where each of its fields is
kept and the directives make no key the only one. -/
theorem ReadOff.body_again_iff_keeps {m : Model} (h : m.ReadOff) :
    (∃ n, m.reread = .ok n ∧ n.renderBody = m.renderBody) ↔
      (m.idFieldCount ≠ 1 → m.namedCount ≠ 1) ∧ ∀ f ∈ m.fields, m.Keeps f := by
  constructor
  · rintro ⟨n, hreread, hbody⟩
    have hread := h.givesBack hreread hbody
    obtain ⟨hkeys, hone⟩ := (h.body_again_iff hread).1 ⟨n, hreread, hbody⟩
    exact ⟨hkeys, fun f hf => ⟨m.givenBack f, (hread f hf).1, (hread f hf).2, hone f hf⟩⟩
  · rintro ⟨hkeys, hkeeps⟩
    have hread : m.GivesBack := givesBack_of_exists fun f hf => by
      obtain ⟨g, hg, hsame, -⟩ := hkeeps f hf
      exact ⟨g, hg, hsame⟩
    refine (h.body_again_iff hread).2 ⟨hkeys, fun f hf hid hone => ?_⟩
    obtain ⟨g, hg, -, hkey⟩ := hkeeps f hf
    rw [givenBack, Option.mem_def.1 hg]
    exact hkey hid hone

end Model

end CatalogSync
