import CatalogSync.Proofs.Collect
import CatalogSync.Proofs.Schema.FieldLine
import CatalogSync.Schema.Build

/-!
The columns of a model. However a model is made, its widths are those of its fields, so the types of
its lines start in one column, and so do the attributes behind them.
-/

namespace CatalogSync

open Text (lines joined padRight trimRight NoBreak)

theorem widthFault?_of_lt [Room] {width : Nat} (h : width < Room.width) :
    widthFault? width = none := by
  have hword : Record.isWord width = true := by
    have hbound : (9223372036854775808 : Nat) = Record.wordBound := by decide
    have hroom := Room.width_le
    simp only [Record.isWord, Bool.and_eq_true, decide_eq_true_eq]
    omega
  rw [widthFault?, hword, if_neg (by decide), if_neg (by omega)]

namespace Field

/-- Only behind the last attribute is a line trimmed, since each attribute begins with a sign. -/
theorem line_of_renderAttributes {f : Field} {ids : Nat} (h : f.renderAttributes ids ≠ [])
    (nameWidth typeWidth : Nat) :
    ∃ shown, trimRight (joined [' '] (f.renderAttributes ids)) = '@' :: shown ∧
      fieldIndent ++ f.render nameWidth typeWidth ids =
        fieldIndent ++ padRight nameWidth f.name.toList ++ ' ' :: padRight typeWidth f.type.toList
          ++ ' ' :: trimRight (joined [' '] (f.renderAttributes ids)) := by
  obtain ⟨inner, hinner⟩ : ∃ inner, joined [' '] (f.renderAttributes ids) = '@' :: inner := by
    obtain ⟨a, as, has⟩ := List.exists_cons_of_ne_nil h
    obtain ⟨rest, rfl⟩ := exists_sign_of_mem_renderAttributes (has ▸ List.mem_cons_self)
    rw [has]
    cases as with
    | nil => exact ⟨rest, rfl⟩
    | cons next as => exact ⟨_, rfl⟩
  have hsign : ∀ s : List Char, trimRight (s ++ '@' :: inner) = s ++ '@' :: trimRight inner :=
    fun s => Text.dropTrailing_append_cons s (by decide) inner
  have htail : f.renderTail typeWidth ids = padRight typeWidth f.type.toList ++ ' ' :: '@' :: inner := by
    rw [renderTail, ← hinner]
    split
    · contradiction
    · rfl
  have hline : padRight nameWidth f.name.toList ++ ' ' :: f.renderTail typeWidth ids =
      (padRight nameWidth f.name.toList ++ ' ' :: padRight typeWidth f.type.toList ++ [' '])
        ++ '@' :: inner := by
    rw [htail]
    simp only [List.append_assoc, List.cons_append, List.nil_append]
  have hshown : trimRight (joined [' '] (f.renderAttributes ids)) = '@' :: trimRight inner := by
    rw [hinner]
    exact hsign []
  refine ⟨trimRight inner, hshown, ?_⟩
  rw [render, hline, hsign, hshown]
  simp only [List.append_assoc, List.cons_append, List.nil_append]

end Field

namespace Model

/-- The models that can be made: one that is built of a table or read off a fragment, one without
fields, and one to which a field is added. -/
inductive Made : Model → Prop
  | built {t : Table} {m : Model} (h : Model.make t = .ok m) : Made m
  | read {fragment : List Char} {m : Model} (h : Model.parse fragment = .ok (some m)) : Made m
  | bare {m : Model} (h : m.fields = []) : Made m
  | added {m : Model} (h : Made m) (f : Field) : Made (m.addField f)

theorem exists_ofFields_of_make {t : Table} {m : Model} (h : make t = .ok m) :
    ∃ fields, ofFields t fields = m := by
  rw [make] at h
  obtain ⟨-, -, h⟩ := exists_of_bind_eq_ok h
  obtain ⟨columns, -, h⟩ := exists_of_bind_eq_ok h
  obtain ⟨relations, -, h⟩ := exists_of_bind_eq_ok h
  exact ⟨columns ++ relations, Except.ok.inj h⟩

/-- The widths of a model that has fields are those of its fields. -/
theorem Made.recomputeWidths_eq {m : Model} (h : m.Made) (hne : m.fields ≠ []) :
    m.recomputeWidths = m := by
  cases h with
  | built h =>
    obtain ⟨fields, rfl⟩ := exists_ofFields_of_make h
    rfl
  | read h =>
    obtain ⟨-, -, -, -, -, -, -, hwidths⟩ := exists_of_parse h
    exact hwidths
  | bare h => exact absurd h hne
  | added h f => rfl

/-- Each name and each type of a model is shorter than the width that it is filled up to. -/
theorem Made.lt_widths {m : Model} (h : m.Made) {f : Field} (hf : f ∈ m.fields) :
    f.name.length < m.nameWidth ∧ f.type.length < m.typeWidth := by
  rw [← h.recomputeWidths_eq (List.ne_nil_of_mem hf)]
  exact ⟨length_le_widthOf (List.mem_map_of_mem hf), length_le_widthOf (List.mem_map_of_mem hf)⟩

theorem widthOf_lt {lengths : List Nat} {bound : Nat} (hne : lengths ≠ [])
    (h : ∀ n ∈ lengths, n + 1 < bound) : widthOf lengths < bound := by
  obtain ⟨n, hn, hwidth⟩ := exists_widthOf_eq hne
  rw [hwidth]
  exact h n hn

/-- The names and the types of a model, with a space behind each, are shorter than the texts that are
not filled up. -/
def Fits [Room] (m : Model) : Prop :=
  ∀ f ∈ m.fields, f.name.length + 1 < Room.width ∧ f.type.length + 1 < Room.width

theorem Made.widthFault?_eq_none [Room] {m : Model} (h : m.Made) (hfits : m.Fits) :
    m.widthFault? = none := by
  rw [widthFault?]
  split
  · rfl
  next hne =>
    have hname : widthOf (m.fields.map fun f => f.name.length) < Room.width :=
      widthOf_lt (by simpa using hne) (List.forall_mem_map.2 fun f hf => (hfits f hf).1)
    have htype : widthOf (m.fields.map fun f => f.type.length) < Room.width :=
      widthOf_lt (by simpa using hne) (List.forall_mem_map.2 fun f hf => (hfits f hf).2)
    rw [← h.recomputeWidths_eq hne, recomputeWidths, widthFault?_of_lt hname, widthFault?_of_lt htype]
    rfl

/-- A model that can be made is rendered where its names and types can be filled up. -/
theorem Made.text_eq [Room] {m : Model} (h : m.Made) (hfits : m.Fits) : m.text = .ok m.render := by
  rw [text, h.widthFault?_eq_none hfits]

/-- The lines of a model behind those of its fields. -/
def closing (m : Model) : List Char :=
  joined ['\n'] ((if m.directives = [] then [] else [] :: m.directives.map (·.toList)) ++ [['}']])
    ++ ['\n']

theorem lines_render {m : Model} (hname : NoBreak m.name.toList) (hfields : ∀ f ∈ m.fields, f.OneLine) :
    lines m.render = ("model ".toList ++ m.name.toList ++ [' ', '{']) :: m.fields.map m.fieldLine
      ++ lines m.closing := by
  have hsplit : m.render = joined ['\n'] (("model ".toList ++ m.name.toList ++ [' ', '{'])
      :: m.fields.map m.fieldLine) ++ '\n' :: m.closing := by
    have hwhole : ∀ header : List Char, header :: m.renderBody ++ [['}']] =
        (header :: m.fields.map m.fieldLine)
          ++ ((if m.directives = [] then [] else [] :: m.directives.map (·.toList)) ++ [['}']]) := by
      intro header
      rw [renderBody, List.cons_append, List.append_assoc]
      rfl
    rw [render, hwhole, Text.joined_append _ (List.cons_ne_nil _ _) (by simp), closing, List.append_assoc,
      List.append_assoc]
    rfl
  rw [hsplit]
  refine Text.lines_joined_append (List.cons_ne_nil _ _) (fun l hl => ?_) _
  rcases List.mem_cons.1 hl with rfl | hl
  · exact (NoBreak.append (by decide) hname).append (by decide)
  · obtain ⟨f, hf, rfl⟩ := List.mem_map.1 hl
    exact Field.noBreak_line (hfields f hf) _ _ _

/-- The line of a field has its type and its attributes in the columns that the widths of the model set,
with two spaces or more, and nothing else, in front of both. What the last attribute ends with may be
trimmed away, the sign that the first one begins with is not. -/
def InColumns (m : Model) (f : Field) : Prop :=
  ∃ i j shown, 2 ≤ i ∧ 2 ≤ j ∧
    trimRight (joined [' '] (f.renderAttributes m.idFieldCount)) = '@' :: shown ∧
    m.fieldLine f = fieldIndent ++ f.name.toList ++ List.replicate i ' ' ++ f.type.toList
      ++ List.replicate j ' ' ++ '@' :: shown ∧
    (fieldIndent ++ f.name.toList ++ List.replicate i ' ').length = 2 + m.nameWidth + 1 ∧
    (fieldIndent ++ f.name.toList ++ List.replicate i ' ' ++ f.type.toList
      ++ List.replicate j ' ').length = 2 + m.nameWidth + 1 + m.typeWidth + 1

theorem Made.inColumns {m : Model} (h : m.Made) {f : Field} (hf : f ∈ m.fields)
    (hne : f.renderAttributes m.idFieldCount ≠ []) : m.InColumns f := by
  obtain ⟨hname, htype⟩ := h.lt_widths hf
  obtain ⟨shown, hshown, hline⟩ := Field.line_of_renderAttributes hne m.nameWidth m.typeWidth
  refine ⟨m.nameWidth - f.name.length + 1, m.typeWidth - f.type.length + 1, shown, by omega, by omega,
    hshown, ?_, ?_, ?_⟩
  · rw [fieldLine, hline, hshown, padRight, padRight, List.replicate_succ', List.replicate_succ']
    simp only [List.append_assoc, List.cons_append, List.nil_append, String.length_toList]
  · simp only [fieldIndent, List.length_append, List.length_replicate, List.length_cons, List.length_nil,
      String.length_toList]
    omega
  · simp only [fieldIndent, List.length_append, List.length_replicate, List.length_cons, List.length_nil,
      String.length_toList]
    omega

/-- The text of a model is in columns: behind the header stands one line for each field, and the lines with
attributes all have their types in one column and their attributes in another. -/
structure Aligned [Room] (m : Model) : Prop where
  text : m.Fits → m.text = .ok m.render
  lines : Text.lines m.render = ("model ".toList ++ m.name.toList ++ [' ', '{'])
    :: m.fields.map m.fieldLine ++ Text.lines m.closing
  inColumns : ∀ f ∈ m.fields, f.renderAttributes m.idFieldCount ≠ [] → m.InColumns f

/-- Every model that can be made has its text in columns, as long as no name and no text of a field breaks
a line. -/
theorem aligned_of_made [Room] {m : Model} (h : m.Made) (hname : NoBreak m.name.toList)
    (hfields : ∀ f ∈ m.fields, f.OneLine) : m.Aligned where
  text := h.text_eq
  lines := lines_render hname hfields
  inColumns _ hf hne := h.inColumns hf hne

section
open scoped Room

/-- A model that grew by two fields, the second one wider than the first. -/
def shelfModel : Model :=
  (({ name := "Shelf" } : Model).addField { name := "row", type := "Int", isId := true }).addField
    { name := "position", type := "String?", isRequired := false, defaultExpr := some "left" }

theorem aligned_of_made_shelf : shelfModel.Made ∧ shelfModel.Aligned ∧
    shelfModel.fields.map shelfModel.fieldLine =
      ["  row       Int      @id".toList, "  position  String?  @default(left)".toList] := by
  have hmade : shelfModel.Made := ((Made.bare rfl).added _).added _
  refine ⟨hmade, aligned_of_made hmade (by decide) ?_, by decide⟩
  intro f hf
  simp only [shelfModel, addField, recomputeWidths, List.nil_append, List.cons_append, List.mem_cons,
    List.not_mem_nil, or_false] at hf
  rcases hf with rfl | rfl <;> constructor <;> decide

end

end Model

namespace Schema

/-- A schema of models that can be made is rendered where their names and types can be filled up. -/
theorem text_of_made [Room] {s : Schema} (h : ∀ m ∈ s.models, m.Made)
    (hfits : ∀ m ∈ s.models, m.Fits) : s.text = .ok s.render := by
  have hfault : s.models.findSome? (·.widthFault?) = none :=
    List.findSome?_eq_none_iff.2 fun m hm => (h m hm).widthFault?_eq_none (hfits m hm)
  rw [text, hfault]

/-- The models that are read off a text can be made. -/
theorem made_of_parse {t : List Char} {s : Schema} (h : Schema.parse t = .ok s) {m : Model}
    (hm : m ∈ s.models) : m.Made := by
  obtain ⟨fragment, -, hparse⟩ := exists_of_mem_parseModels (exists_of_parse h).2.2 hm
  exact .read hparse

/-- What is read off a text can be rendered again where its names and types can be filled up. -/
theorem text_of_parse [Room] {t : List Char} {s : Schema} (h : Schema.parse t = .ok s)
    (hfits : ∀ m ∈ s.models, m.Fits) : s.text = .ok s.render :=
  text_of_made (fun _ => made_of_parse h) hfits

end Schema

end CatalogSync
