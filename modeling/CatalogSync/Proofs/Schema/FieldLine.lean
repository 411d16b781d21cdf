import CatalogSync.Proofs.Schema.FieldTally

/-!
Field lines side by side. Two fields that were read have the same line under the same widths exactly
where they have the same name, the same type, the same attributes behind them, and both show a key
or neither does.
-/

namespace CatalogSync

open Text (isBlank words)
open Attributes (spaced)

namespace Field

/-- What the line of a field says apart from its key: the name, the type and the attributes. -/
def texts (f : Field) : String × String × List Char :=
  (f.name, f.type, spaced (f.renderAttributes 0))

theorem texts_eq_iff {g f : Field} : g.texts = f.texts ↔ g.name = f.name ∧ g.type = f.type ∧
    spaced (g.renderAttributes 0) = spaced (f.renderAttributes 0) := by
  simp only [texts, Prod.mk.injEq]

/-- The key of a field is not among what its line says apart from it. -/
theorem texts_withKey (f : Field) (key : Bool) : texts { f with isId := key } = f.texts := by
  simp [texts, renderAttributes]

theorem Read.withKey {f : Field} (h : f.Read) (key : Bool) : Read { f with isId := key } :=
  ⟨h.name, h.type, h.isArray, h.isRequired, h.default, h.native⟩

/-- The words of a line begin with the name and the type. -/
theorem take_words_line {f : Field} (h : f.Read) (nameWidth typeWidth ids : Nat) :
    (words (fieldIndent ++ f.render nameWidth typeWidth ids)).take 2 =
      [f.name.toList, f.type.toList] := by
  obtain ⟨a, b, hline⟩ := exists_columns h.inked nameWidth typeWidth ids
  rw [hline, Text.words_append_spaced, words_columns h.name h.type]
  rfl

/-- The mark of a key stands in front of all other attributes. -/
theorem renderAttributes_eq_append (f : Field) (ids : Nat) :
    f.renderAttributes ids = f.idTexts ids ++ f.renderAttributes 0 := by
  have hid : f.idTexts 0 = [] := if_neg (by simp)
  rw [renderAttributes_eq, renderAttributes_eq, hid, List.nil_append, List.append_assoc]

/-- No attribute but the mark of a key begins like it. -/
theorem exists_of_mem_renderAttributes {f : Field} {t : List Char} (h : t ∈ f.renderAttributes 0) :
    ∃ c rest, t = '@' :: c :: rest ∧ c ≠ 'i' := by
  have hid : f.idTexts 0 = [] := if_neg (by simp)
  rw [renderAttributes_eq, hid, List.nil_append, List.mem_append, Option.mem_toList,
    Option.map_eq_some_iff, mem_laterTexts] at h
  rcases h with ⟨⟨mapName⟩, -, rfl⟩ | ⟨e, -, rfl⟩ | ⟨t, -, rfl⟩ | ⟨r, -, rfl⟩
  · cases mapName with
    | none => exact ⟨'u', _, rfl, by decide⟩
    | some name => exact ⟨'u', _, rfl, by decide⟩
  · exact ⟨'d', _, rfl, by decide⟩
  · exact ⟨'d', _, rfl, by decide⟩
  · exact ⟨'r', _, rfl, by decide⟩

theorem exists_sign_of_mem_renderAttributes {f : Field} {ids : Nat} {t : List Char}
    (h : t ∈ f.renderAttributes ids) : ∃ rest, t = '@' :: rest := by
  rw [renderAttributes_eq_append, List.mem_append] at h
  rcases h with h | h
  · rw [idTexts] at h
    split at h
    · exact ⟨_, List.mem_singleton.1 h⟩
    · exact absurd h List.not_mem_nil
  · obtain ⟨c, rest, rfl, -⟩ := exists_of_mem_renderAttributes h
    exact ⟨c :: rest, rfl⟩

theorem ne_cons_id {f : Field} (rest : List Char) :
    spaced (f.renderAttributes 0) ≠ ' ' :: "@id".toList ++ rest := by
  intro h
  cases hattributes : f.renderAttributes 0 with
  | nil =>
    rw [hattributes] at h
    cases h
  | cons t ts =>
    obtain ⟨c, later, rfl, hc⟩ :=
      exists_of_mem_renderAttributes (by rw [hattributes]; exact List.mem_cons_self)
    have hsame : ' ' :: '@' :: c :: later ++ spaced ts = ' ' :: '@' :: 'i' :: ('d' :: rest) := by
      rw [hattributes, Attributes.spaced_cons] at h
      exact h
    obtain ⟨-, htail⟩ := List.cons.inj hsame
    obtain ⟨-, htail⟩ := List.cons.inj htail
    exact hc (List.cons.inj htail).1

/-- The attributes say whether a key is shown, and all else besides. -/
theorem spaced_renderAttributes_eq_iff {g f : Field} :
    spaced (g.renderAttributes 1) = spaced (f.renderAttributes 1) ↔
      g.isId = f.isId ∧ spaced (g.renderAttributes 0) = spaced (f.renderAttributes 0) := by
  have hshape : ∀ k : Field, spaced (k.renderAttributes 1) =
      (if k.isId then ' ' :: "@id".toList else []) ++ spaced (k.renderAttributes 0) := by
    intro k
    rw [renderAttributes_eq_append, Attributes.spaced_append, idTexts]
    cases k.isId <;> rfl
  rw [hshape, hshape]
  cases hg : g.isId <;> cases hf : f.isId
  · simp
  · refine iff_of_false (fun h => ne_cons_id _ h) (by simp)
  · refine iff_of_false (fun h => ne_cons_id _ h.symm) (by simp)
  · rw [if_pos rfl, List.append_cancel_left_eq]
    simp

/-- Two fields have the same line under the same widths where they say the same, their keys
counted. -/
theorem line_eq_iff {g f : Field} (hg : g.Read) (hf : f.Read) (nameWidth typeWidth : Nat) :
    fieldIndent ++ g.render nameWidth typeWidth 1 = fieldIndent ++ f.render nameWidth typeWidth 1 ↔
      g.isId = f.isId ∧ g.texts = f.texts := by
  rw [texts_eq_iff]
  constructor
  · intro h
    have hwords := congrArg (fun line => (words line).take 2) h
    rw [take_words_line hg, take_words_line hf] at hwords
    obtain ⟨hname, htype⟩ : g.name = f.name ∧ g.type = f.type := by
      simpa [String.toList_inj] using hwords
    rw [line_eq hg.inked, line_eq hf.inked, columns, columns, hname, htype] at h
    simp only [List.append_assoc, List.cons_append, List.append_cancel_left_eq,
      List.cons.injEq, true_and] at h
    have hattributes : spaced (g.renderAttributes 1) = spaced (f.renderAttributes 1) := by
      cases hga : g.renderAttributes 1 with
      | nil =>
        cases hfa : f.renderAttributes 1 with
        | nil => rfl
        | cons t ts =>
          rw [hga, hfa] at h
          simp [spaced] at h
      | cons u us =>
        cases hfa : f.renderAttributes 1 with
        | nil =>
          rw [hga, hfa] at h
          simp [spaced] at h
        | cons t ts =>
          rw [hga, hfa, if_neg (List.cons_ne_nil u us), if_neg (List.cons_ne_nil t ts),
            List.append_cancel_left_eq] at h
          exact h
    obtain ⟨hid, hrest⟩ := spaced_renderAttributes_eq_iff.1 hattributes
    exact ⟨hid, hname, htype, hrest⟩
  · rintro ⟨hid, hname, htype, hrest⟩
    have hattributes := spaced_renderAttributes_eq_iff.2 ⟨hid, hrest⟩
    have hnil : g.renderAttributes 1 = [] ↔ f.renderAttributes 1 = [] := by
      have hspaced : ∀ l : List (List Char), spaced l = [] ↔ l = [] := by
        intro l
        cases l <;> simp [spaced]
      rw [← hspaced, hattributes, hspaced]
    rw [line_eq hg.inked, line_eq hf.inked, hattributes, columns, columns, hname, htype]
    simp only [hnil]

theorem plainSigns_eq_of_texts {g f : Field} (h : g.texts = f.texts) :
    g.plainSigns = f.plainSigns := by
  obtain ⟨hname, htype, hattributes⟩ := texts_eq_iff.1 h
  have hblank : isSign ' ' = false := by decide
  have hsum := congrArg (List.countP isSign) hattributes
  rw [Attributes.countP_spaced hblank, Attributes.countP_spaced hblank] at hsum
  rw [plainSigns, plainSigns, hname, htype, hsum]

end Field

end CatalogSync
