import CatalogSync.Proofs.Schema.FieldText
import CatalogSync.Schema.Parse

/-!
Model bodies. Each line of a body gives a field, a directive or nothing, apart from all others; the
key directives then mark, of each name they hold, the first field that has it.
-/

namespace CatalogSync

open Text (isBlank trim startsWith NoBlank NoTrailingBlank)
open Attributes (spaced)

namespace Model

/-- A field line is read as it stands. -/
theorem bodyLine_eq_self {line l : List Char} (h : bodyLine line = .field l) : l = line := by
  rw [bodyLine] at h
  split at h
  · cases h
  · split at h
    · cases h
    · exact (BodyLine.field.inj h).symm

/-- The field lines of a fragment. -/
def fieldLines (fragment : List Char) : List (List Char) :=
  match split? fragment with
  | none => []
  | some (_, body) => (Text.lines body).filter fun line => bodyLine line = .field line

/-- The field that a line of a body gives. -/
def fieldOf? (line : List Char) : Option Field :=
  match bodyLine line with
  | .field line => (Field.parse line).toOption.join
  | _ => none

/-- The directive that a line of a body is. -/
def directiveOf? (line : List Char) : Option String :=
  match bodyLine line with
  | .directive text => some (String.ofList text)
  | _ => none

/-- No attribute of the line breaks the reading off. -/
def Reads (line : List Char) : Prop := ∀ l, bodyLine line = .field l → ∃ r, Field.parse l = .ok r

/-- A body is read where each of its lines is, and gives what its lines give. -/
theorem addBody_eq_ok_iff {m n : Model} {ls : List (List Char)} : addBody m ls = .ok n ↔
    (∀ l ∈ ls, Reads l) ∧ n = { m with
      fields := m.fields ++ ls.filterMap fieldOf?
      directives := m.directives ++ ls.filterMap directiveOf? } := by
  induction ls generalizing m with
  | nil => simp [addBody, eq_comm]
  | cons l ls ih =>
    rw [addBody, List.forall_mem_cons]
    cases hl : bodyLine l with
    | skipped =>
      have hreads : Reads l := fun k hk => by rw [hl] at hk; cases hk
      simp only [ih, hreads, true_and, List.filterMap_cons, fieldOf?, directiveOf?, hl]
    | directive text =>
      have hreads : Reads l := fun k hk => by rw [hl] at hk; cases hk
      simp only [ih, hreads, true_and, List.filterMap_cons, fieldOf?, directiveOf?, hl,
        List.append_assoc, List.cons_append, List.nil_append]
    | field line =>
      cases hp : Field.parse line with
      | error e =>
        have hreads : ¬Reads l := fun h => by
          obtain ⟨r, hr⟩ := h line hl
          rw [hp] at hr
          cases hr
        simp only [hp, hreads, false_and, reduceCtorEq]
      | ok found =>
        have hreads : Reads l := fun k hk => by
          rw [hl] at hk
          cases hk
          exact ⟨found, hp⟩
        cases found with
        | none =>
          simp only [ih, hreads, true_and, List.filterMap_cons, fieldOf?, directiveOf?, hl, hp,
            Except.toOption, Option.join_some]
        | some f =>
          simp only [ih, hreads, true_and, List.filterMap_cons, fieldOf?, directiveOf?, hl, hp,
            Except.toOption, Option.join_some, List.append_assoc, List.cons_append, List.nil_append]

/-- A fragment with a name is read as its body is; the check of its name passes. -/
theorem parse_of_split {fragment name body : List Char} (h : split? fragment = some (name, body)) :
    Model.parse fragment =
      (addBody { name := String.ofList name } (Text.lines body)).map fun m => some m.finish := by
  have hname : String.ofList name ≠ "" := by
    obtain ⟨found, -, hfound⟩ := Option.bind_eq_some_iff.1 h
    split at hfound
    · cases hfound
    next hne =>
      obtain ⟨rfl, -⟩ := Prod.mk.inj (Option.some.inj hfound)
      simpa using hne
  rw [Model.parse, h]
  simp only [empty_eq_ok hname, Except.bind]
  split <;> rename_i hbody <;> rw [hbody] <;> rfl

/-! ### Lines as they are written -/

/-- A directive that is read back from its line: two signs behind white space, and no white space
at the end. -/
@[mk_iff]
structure DirectiveFits (d : List Char) : Prop where
  noTrailingBlank : NoTrailingBlank d
  signs : startsWith ['@', '@'] (Text.trimLeft d) = true

instance (d : List Char) : Decidable (DirectiveFits d) := decidable_of_iff' _ (directiveFits_iff d)

theorem DirectiveFits.exists_indent {d : List Char} (h : DirectiveFits d) :
    ∃ indent rest, d = indent ++ '@' :: '@' :: rest ∧ ∀ c ∈ indent, isBlank c = true := by
  obtain ⟨rest, hrest⟩ := Text.startsWith_iff.1 h.signs
  refine ⟨d.takeWhile isBlank, rest, ?_, fun c hc => List.all_eq_true.1 List.all_takeWhile c hc⟩
  calc d = d.takeWhile isBlank ++ Text.trimLeft d := List.takeWhile_append_dropWhile.symm
    _ = d.takeWhile isBlank ++ '@' :: '@' :: rest := congrArg (_ ++ ·) hrest

theorem bodyLine_directive {d : List Char} (h : DirectiveFits d) : bodyLine d = .directive d := by
  have hlast := h.noTrailingBlank
  obtain ⟨indent, rest, rfl, hindent⟩ := h.exists_indent
  have htrim : trim (indent ++ '@' :: '@' :: rest) = '@' :: '@' :: rest := by
    have hend : NoTrailingBlank ('@' :: '@' :: rest) := by
      intro c hc
      refine hlast c ?_
      rwa [List.getLast?_append_of_ne_nil _ (List.cons_ne_nil _ _)]
    simpa using Text.trim_append (s := '@' :: '@' :: rest) indent [] hindent (by simp)
      (by simp; rfl) hend
  rw [bodyLine, htrim, if_neg, if_pos, Text.trimRight_eq_self hlast]
  · rfl
  · rintro (h | h | h)
    · cases h
    · cases h
    · cases h

/-- A field line is read as one unless its name makes it a comment or a directive. -/
theorem bodyLine_field {f : Field} (h : f.Inked)
    (hname : f.name.toList ≠ [] ∧ NoBlank f.name.toList)
    (hcomment : startsWith ['/', '/'] f.name.toList = false)
    (hdirective : startsWith ['@', '@'] f.name.toList = false) (nameWidth typeWidth ids : Nat) :
    bodyLine (fieldIndent ++ f.render nameWidth typeWidth ids) =
      .field (fieldIndent ++ f.render nameWidth typeWidth ids) := by
  obtain ⟨a, b, hline⟩ := Field.exists_columns h nameWidth typeWidth ids
  have hshape : ∃ rest, f.render nameWidth typeWidth ids = f.name.toList ++ ' ' :: rest := by
    refine ⟨List.replicate a ' ' ++ f.type.toList ++ List.replicate b ' '
      ++ spaced (f.renderAttributes ids), List.append_cancel_left (hline.trans ?_)⟩
    rw [Field.columns, List.append_assoc, List.append_assoc, List.cons_append]
  obtain ⟨rest, hrest⟩ := hshape
  have htrim : trim (fieldIndent ++ f.render nameWidth typeWidth ids) =
      f.name.toList ++ ' ' :: rest := by
    have hlast : NoTrailingBlank (f.render nameWidth typeWidth ids) :=
      (Text.exists_append_dropTrailing _).2
    rw [hrest] at hlast ⊢
    have hfirst : ∀ c ∈ (f.name.toList ++ ' ' :: rest).head?, isBlank c = false := by
      intro c hc
      rw [List.head?_append_of_ne_nil _ hname.1] at hc
      exact hname.2 c (List.mem_of_head? hc)
    simpa using Text.trim_append fieldIndent [] (by decide) (by simp) hfirst hlast
  rw [bodyLine, htrim, Text.startsWith_append_cons (by decide),
    Text.startsWith_append_cons (by decide), hcomment, hdirective]
  rw [if_neg, if_neg (by simp)]
  rintro (h | h | h)
  · simp at h
  · cases h
  · have := congrArg List.length h
    obtain ⟨c, name, hcons⟩ := List.exists_cons_of_ne_nil hname.1
    rw [hcons] at this
    simp at this

/-! ### Marking keys -/

/-- The fields with the mark of a key on the first one of each name. -/
def markFirst (names : List String) : List Field → List Field
  | [] => []
  | f :: rest =>
    { f with isId := f.isId || f.name ∈ names } :: markFirst (names.filter (· ≠ f.name)) rest

theorem foldl_markOne (names : List String) (fields : List Field) :
    names.foldl markIds.markOne fields = markFirst names fields := by
  induction fields generalizing names with
  | nil =>
    induction names with
    | nil => rfl
    | cons name names ih => exact ih
  | cons f rest ih =>
    rw [markFirst, ← ih]
    clear ih
    induction names generalizing f rest with
    | nil => simp
    | cons name names ih =>
      rw [List.foldl_cons, markIds.markOne]
      by_cases hname : f.name = name
      · rw [if_pos hname, ih]
        simp [hname]
      · rw [if_neg hname, ih]
        simp [hname, Ne.symm hname]

theorem markIds_eq (m : Model) (names : List String) :
    m.markIds names = { m with fields := markFirst names m.fields } := by
  rw [markIds, foldl_markOne]

theorem map_markFirst {α : Type} {p : Field → α} (hp : ∀ f b, p { f with isId := b } = p f)
    (names : List String) (fields : List Field) : (markFirst names fields).map p = fields.map p := by
  induction fields generalizing names with
  | nil => rfl
  | cons f rest ih => rw [markFirst, List.map_cons, List.map_cons, ih, hp]

/-- Fields that show their marks in part get the others back where each mark is shown or put on the
first field of its name. -/
theorem markFirst_map_eq_iff (shown : Field → Bool) {names : List String} {fields : List Field} :
    markFirst names (fields.map fun f => { f with isId := shown f }) = fields ↔
      ∀ l f r, fields = l ++ f :: r →
        (f.isId = true ↔ shown f = true ∨ f.name ∈ names ∧ f.name ∉ l.map (·.name)) := by
  induction fields generalizing names with
  | nil => simp [markFirst]
  | cons g rest ih =>
    have hself : ({ g with isId := shown g || decide (g.name ∈ names) } : Field) = g ↔
        (g.isId = true ↔ shown g = true ∨ g.name ∈ names) := by
      have hor : shown g = true ∨ g.name ∈ names ↔ (shown g || decide (g.name ∈ names)) = true := by
        simp
      rw [hor, ← Bool.eq_iff_iff]
      constructor
      · intro h
        exact (congrArg Field.isId h).symm
      · intro h
        rw [← h]
    rw [List.map_cons, markFirst, List.cons.injEq]
    simp only [hself, ih]
    constructor
    · rintro ⟨hg, hrest⟩ l f r hsplit
      cases l with
      | nil =>
        obtain ⟨rfl, -⟩ := List.cons.inj hsplit
        simpa using hg
      | cons g' l =>
        obtain ⟨rfl, htail⟩ := List.cons.inj hsplit
        simpa [and_assoc, and_comm, and_left_comm] using hrest l f r htail
    · intro h
      refine ⟨by simpa using h [] g rest rfl, fun l f r hsplit => ?_⟩
      simpa [and_assoc, and_comm, and_left_comm] using h (g :: l) f r (by rw [hsplit]; rfl)

/-! ### The body of a model -/

/-- The line of a field of the model. -/
def fieldLine (m : Model) (f : Field) : List Char :=
  fieldIndent ++ f.render m.nameWidth m.typeWidth m.idFieldCount

/-- The model that the body of a model is read as under its name. -/
def reread (m : Model) : Except Fault Model :=
  (addBody { name := m.name } m.renderBody).map finish

theorem filterMap_renderBody {α : Type} {give : List Char → Option α} (hnil : give [] = none)
    (m : Model) : m.renderBody.filterMap give =
      (m.fields.filterMap fun f => give (m.fieldLine f))
        ++ m.directives.filterMap fun d => give d.toList := by
  rw [renderBody, List.filterMap_append, List.filterMap_map]
  congr 1
  split
  next h => rw [h]; rfl
  next h => rw [List.filterMap_cons, hnil, List.filterMap_map]; rfl

/-- Directives give no fields, so those of a body are the ones that its field lines give. -/
theorem filterMap_fieldOf?_renderBody {m : Model} (h : ∀ d ∈ m.directives, DirectiveFits d.toList) :
    m.renderBody.filterMap fieldOf? = m.fields.filterMap fun f => fieldOf? (m.fieldLine f) := by
  have hnone : m.directives.filterMap (fun d => fieldOf? d.toList) = [] := by
    refine List.filterMap_eq_nil_iff.2 fun d hd => ?_
    rw [fieldOf?, bodyLine_directive (h d hd)]
  rw [filterMap_renderBody rfl, hnone, List.append_nil]

/-- A model is read back with the fields and the directives that the lines of its body give. -/
theorem eq_finish_of_reread {m n : Model} (h : m.reread = .ok n) :
    n = finish {
      name := m.name
      fields := m.renderBody.filterMap fieldOf?
      directives := m.renderBody.filterMap directiveOf? } := by
  rw [reread] at h
  cases hbody : addBody { name := m.name } m.renderBody with
  | error e =>
    rw [hbody] at h
    cases h
  | ok k =>
    rw [hbody] at h
    obtain rfl : k.finish = n := Except.ok.inj h
    obtain ⟨-, rfl⟩ := addBody_eq_ok_iff.1 hbody
    rfl

theorem mem_renderBody {m : Model} {line : List Char} (h : line ∈ m.renderBody) :
    (∃ f ∈ m.fields, line = m.fieldLine f) ∨ line = [] ∨ ∃ d ∈ m.directives, line = d.toList := by
  rw [renderBody, List.mem_append, List.mem_map] at h
  rcases h with ⟨f, hf, rfl⟩ | h
  · exact Or.inl ⟨f, hf, rfl⟩
  · split at h
    · exact absurd h List.not_mem_nil
    · rcases List.mem_cons.1 h with rfl | h
      · exact Or.inr (Or.inl rfl)
      · obtain ⟨d, hd, rfl⟩ := List.mem_map.1 h
        exact Or.inr (Or.inr ⟨d, hd, rfl⟩)

theorem fieldOf?_of_parse {line : List Char} {f : Field} (hline : bodyLine line = .field line)
    (hparse : Field.parse line = .ok (some f)) : fieldOf? line = some f := by
  rw [fieldOf?, hline]
  simp only [hparse]
  rfl

/-- A body whose lines are read one by one gives the fields that its field lines give, and its
directives. -/
theorem addBody_renderBody {m : Model} {g : Field → Field}
    (hfields : ∀ f ∈ m.fields, bodyLine (m.fieldLine f) = .field (m.fieldLine f) ∧
      Field.parse (m.fieldLine f) = .ok (some (g f)))
    (hdirectives : ∀ d ∈ m.directives, DirectiveFits d.toList) :
    addBody { name := m.name } m.renderBody =
      .ok { name := m.name, fields := m.fields.map g, directives := m.directives } := by
  have hnil : bodyLine [] = .skipped := rfl
  refine addBody_eq_ok_iff.2 ⟨fun line hline k hk => ?_, ?_⟩
  · rcases mem_renderBody hline with ⟨f, hf, rfl⟩ | rfl | ⟨d, hd, rfl⟩
    · rw [(hfields f hf).1] at hk
      cases hk
      exact ⟨_, (hfields f hf).2⟩
    · rw [hnil] at hk
      cases hk
    · rw [bodyLine_directive (hdirectives d hd)] at hk
      cases hk
  · have hgive : ∀ f ∈ m.fields, fieldOf? (m.fieldLine f) = some (g f) :=
      fun f hf => fieldOf?_of_parse (hfields f hf).1 (hfields f hf).2
    have hkeep : ∀ f ∈ m.fields, directiveOf? (m.fieldLine f) = none := by
      intro f hf
      rw [directiveOf?, (hfields f hf).1]
    have hself : ∀ d ∈ m.directives, directiveOf? d.toList = some d := by
      intro d hd
      rw [directiveOf?, bodyLine_directive (hdirectives d hd)]
      simp only [String.ofList_toList]
    rw [filterMap_fieldOf?_renderBody hdirectives, filterMap_renderBody rfl, List.filterMap_congr hgive,
      List.filterMap_congr hkeep, List.filterMap_congr hself]
    simp

/-- A body all of whose lines say all there is to say. -/
structure Legible (m : Model) : Prop where
  fields : ∀ f ∈ m.fields, f.Legible ∧ startsWith ['/', '/'] f.name.toList = false ∧
    startsWith ['@', '@'] f.name.toList = false
  directives : ∀ d ∈ m.directives, DirectiveFits d.toList

/-- The marks of keys that reading puts on fields are those that the fields have: a mark that the
one field so marked shows, or that a key directive gives to the first field of a name. -/
def KeysAgree (m : Model) : Prop :=
  ∀ l f r, m.fields = l ++ f :: r → (f.isId = true ↔
    (f.isId = true ∧ m.idFieldCount = 1) ∨ f.name ∈ m.directiveIds ∧ f.name ∉ l.map (·.name))

/-- The fields of a model with the marks of keys that their lines show. -/
def shownFields (m : Model) : List Field :=
  m.fields.map fun f => { f with isId := decide (f.isId ∧ m.idFieldCount = 1) }

theorem keysAgree_iff {m : Model} :
    m.KeysAgree ↔ markFirst m.directiveIds m.shownFields = m.fields := by
  rw [shownFields, markFirst_map_eq_iff fun f => decide (f.isId ∧ m.idFieldCount = 1), KeysAgree]
  simp only [decide_eq_true_eq]

instance (m : Model) : Decidable m.KeysAgree := decidable_of_iff' _ keysAgree_iff

theorem Legible.reread_eq {m : Model} (h : m.Legible) : m.reread =
    .ok (finish { name := m.name, fields := m.shownFields, directives := m.directives }) := by
  have hbody : addBody { name := m.name } m.renderBody =
      .ok { name := m.name, fields := m.shownFields, directives := m.directives } := by
    refine addBody_renderBody (fun f hf => ⟨?_, ?_⟩) h.directives
    · obtain ⟨hf, hcomment, hdirective⟩ := h.fields f hf
      exact bodyLine_field hf.inked hf.name hcomment hdirective _ _ _
    · exact Field.parse_line (h.fields f hf).1 _ _ _
  rw [reread, hbody]
  rfl

theorem finish_eq (m : Model) : m.finish =
    { m.recomputeWidths with fields := markFirst m.directiveIds m.fields } := by
  rw [finish, markIds_eq, recomputeWidths, map_markFirst fun _ _ => rfl,
    map_markFirst fun _ _ => rfl]
  rfl

/-- A model whose lines say all is read back where its marks of keys and its widths are those that
reading gives. -/
theorem Legible.reread_eq_self_iff {m : Model} (h : m.Legible) :
    m.reread = .ok m ↔ m.KeysAgree ∧ m.recomputeWidths = m := by
  have hwidths : recomputeWidths
      { name := m.name, fields := m.shownFields, directives := m.directives } =
      { m.recomputeWidths with fields := m.shownFields } := by
    simp only [recomputeWidths, shownFields, List.map_map]
    rfl
  have hfinish : finish { name := m.name, fields := m.shownFields, directives := m.directives } =
      { m.recomputeWidths with fields := markFirst m.directiveIds m.shownFields } := by
    rw [finish_eq, hwidths]
    rfl
  rw [h.reread_eq, Except.ok.injEq, hfinish, keysAgree_iff]
  constructor
  · intro heq
    have hname := congrArg Model.nameWidth heq
    have htype := congrArg Model.typeWidth heq
    dsimp only at hname htype
    refine ⟨congrArg Model.fields heq, ?_⟩
    calc m.recomputeWidths = { m with
          nameWidth := m.recomputeWidths.nameWidth
          typeWidth := m.recomputeWidths.typeWidth } := rfl
      _ = m := by rw [hname, htype]
  · rintro ⟨hfields, hself⟩
    rw [hfields, hself]

end Model

end CatalogSync
