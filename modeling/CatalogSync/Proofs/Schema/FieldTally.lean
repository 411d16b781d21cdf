import CatalogSync.Proofs.Schema.Parsed
import CatalogSync.Proofs.Schema.RelationTally

/-!
How many signs a field line holds. Each part of a field that was read comes from text of its own in
the line, so that the field shows no more signs than its line did, with the mark of a key counted. A
line that shows no key is then read as one without a key, unless something else of it was lost.
-/

namespace CatalogSync

open Text (isBlank cutWhere words NoBlank)
open Attributes (spaced)

namespace Text

/-- The words of a text hold all its characters that are not blank. -/
theorem sum_countP_words {q : Char → Bool} (h : ∀ c, isBlank c = true → q c = false)
    (s : List Char) : ((words s).map (·.countP q)).sum = s.countP q := by
  have hpieces : ((cutWhere isBlank s).map (·.countP q)).sum = s.countP q := by
    induction s with
    | nil => rfl
    | cons c s ih =>
      rw [cutWhere]
      cases hc : isBlank c with
      | true =>
        rw [if_pos rfl, List.map_cons, List.sum_cons, ih, List.countP_nil, Nat.zero_add,
          List.countP_cons_of_neg (by simp [h c hc])]
      | false =>
        obtain ⟨first, others, hcut⟩ := List.exists_cons_of_ne_nil (cutWhere_ne_nil isBlank s)
        rw [hcut, List.map_cons, List.sum_cons] at ih
        rw [if_neg Bool.false_ne_true, hcut, List.map_cons, List.sum_cons, List.countP_cons,
          List.countP_cons, ← ih]
        omega
  have hfilter : ∀ pieces : List (List Char),
      ((pieces.filter (!·.isEmpty)).map (·.countP q)).sum = (pieces.map (·.countP q)).sum := by
    intro pieces
    induction pieces with
    | nil => rfl
    | cons piece pieces ih =>
      cases piece with
      | nil => simpa using ih
      | cons c piece => simpa using ih
  rw [words, hfilter, hpieces]

end Text

namespace Attributes

theorem countP_spaced {q : Char → Bool} (h : q ' ' = false) (pieces : List (List Char)) :
    (spaced pieces).countP q = (pieces.map (·.countP q)).sum := by
  induction pieces with
  | nil => rfl
  | cons piece pieces ih =>
    rw [spaced_cons, List.countP_append, ih, List.countP_cons_of_neg (by simp [h]), List.map_cons,
      List.sum_cons]

end Attributes

/-- The sign that begins an attribute. -/
def isSign (c : Char) : Bool := c = '@'

theorem isSign_eq_false_of_isBlank {c : Char} (h : isBlank c = true) : isSign c = false := by
  cases hc : isSign c with
  | false => rfl
  | true =>
    obtain rfl : c = '@' := by simpa [isSign] using hc
    cases h

/-- A mark for unique values has as many signs as the flag that it is read as. -/
theorem UniqueFlag.Spells.countP_sign {u : UniqueFlag} {mark : List Char} (h : Spells u mark) :
    mark.countP isSign = u.render.countP isSign := by
  obtain ⟨mapName⟩ := u
  cases mapName with
  | none =>
    obtain rfl : mark = sign := h
    rfl
  | some name =>
    obtain ⟨-, a, b, c, hblank, rfl⟩ := h
    have hnone : ∀ t : List Char, (∀ d ∈ t, isBlank d = true) → t.countP isSign = 0 :=
      fun t ht => List.countP_eq_zero.2 fun d hd => by simp [isSign_eq_false_of_isBlank (ht d hd)]
    have ha : a.countP isSign = 0 := hnone a fun d hd => hblank d (by simp [hd])
    have hb : b.countP isSign = 0 := hnone b fun d hd => hblank d (by simp [hd])
    have hc : c.countP isSign = 0 := hnone c fun d hd => hblank d (by simp [hd])
    have hsign : sign.countP isSign = 1 := by decide
    have hmap : "map:".toList.countP isSign = 0 := by decide
    have hopen : "@unique(map: \"".toList.countP isSign = 1 := by decide
    have hclose : "\")".toList.countP isSign = 0 := by decide
    have hmarks : isSign '(' = false ∧ isSign '"' = false ∧ isSign ')' = false := by decide
    have hrender : render ⟨some name⟩ = "@unique(map: \"".toList ++ name.toList ++ "\")".toList :=
      rfl
    rw [hrender]
    simp only [List.countP_append, List.countP_cons, List.countP_nil, ha, hb, hc, hsign, hmap, hopen,
      hclose, hmarks]
    simp

namespace Field

/-- How many signs the attributes of a field hold, the mark for unique values left out. -/
def signs (f : Field) : Nat :=
  (if f.isId then 1 else 0)
    + f.defaultExpr.elim 0 (fun e => (defaultText e.toList).countP isSign)
    + f.nativeType.elim 0 (fun t => (nativeText t.toList).countP isSign)
    + f.relation.elim 0 fun r => r.render.countP isSign

theorem Adds.signs_le {g f : Field} {a : Attribute} (h : Adds g a f) :
    f.signs ≤ g.signs + a.text.countP isSign := by
  cases h with
  | id =>
    have hsign : "@id".toList.countP isSign = 1 := by decide
    rw [Attribute.text, hsign]
    simp only [signs, if_true]
    omega
  | native ha =>
    rw [ha]
    simp only [signs, Option.elim_some, String.toList_ofList]
    omega
  | default e =>
    rw [Attribute.text]
    simp only [signs, Option.elim_some, String.toList_ofList]
    omega
  | @relation text r hword hparse =>
    have hle : r.render.countP isSign ≤ text.countP isSign := Relation.countP_render_le hword hparse
    simp only [signs, Option.elim_some, Attribute.text]
    omega
  | nothing => exact Nat.le_add_right _ _

theorem signs_le_of_withAttributes {g f : Field} {as : List Attribute}
    (h : g.withAttributes as = .ok f) :
    f.signs ≤ g.signs + ((as.map Attribute.text).map (·.countP isSign)).sum := by
  induction as generalizing g with
  | nil =>
    obtain rfl := Except.ok.inj h
    exact Nat.le_add_right _ _
  | cons a as ih =>
    obtain ⟨k, hadds, hrest⟩ := exists_of_withAttributes_cons h
    have hfirst := hadds.signs_le
    have hlater := ih hrest
    rw [List.map_cons, List.map_cons, List.sum_cons]
    omega

/-- How many signs the line of a field holds that shows no key. -/
def plainSigns (f : Field) : Nat :=
  f.name.toList.countP isSign + f.type.toList.countP isSign
    + ((f.renderAttributes 0).map (·.countP isSign)).sum

/-- The mark of a key adds one sign to those of the line. -/
theorem plainSigns_add (f : Field) : f.plainSigns + (if f.isId then 1 else 0) =
    f.name.toList.countP isSign + f.type.toList.countP isSign
      + f.unique.elim 0 (fun u => u.render.countP isSign) + f.signs := by
  have hoption : ∀ {α : Type} (o : Option α) (write : α → List Char),
      ((o.map write).toList.map (·.countP isSign)).sum =
        o.elim 0 fun a => (write a).countP isSign := by
    intro α o write
    cases o <;> simp
  have hid : f.idTexts 0 = [] := if_neg (by simp)
  simp only [plainSigns, signs, renderAttributes_eq, laterTexts, hid, List.nil_append,
    List.map_append, List.sum_append, hoption]
  omega

/-- A field that was read has no more signs than its line, the mark of a key counted. -/
theorem plainSigns_le_of_parse {line : List Char} {g : Field}
    (h : Field.parse line = .ok (some g)) :
    g.plainSigns + (if g.isId then 1 else 0) ≤ line.countP isSign := by
  obtain ⟨rest, name, type, ws, hextract, hwords, hopen, hread⟩ := exists_of_parse h
  have hsigns := signs_le_of_withAttributes hread
  have hname : g.name.toList = name ∧ g.type.toList = type := by
    rw [(saidBy_of_withAttributes hread).same]
    exact ⟨String.toList_ofList, String.toList_ofList⟩
  have hnone : (ofNameAndType name type g.unique).signs = 0 := rfl
  have hblank : isSign ' ' = false := by decide
  have hclosed := congrArg (List.countP isSign) (Attributes.spaced_collect hopen)
  rw [Attributes.countP_spaced hblank, Attributes.countP_spaced hblank] at hclosed
  have hrest : rest.countP isSign =
      name.countP isSign + type.countP isSign + (ws.map (·.countP isSign)).sum := by
    rw [← Text.sum_countP_words (fun c => isSign_eq_false_of_isBlank), hwords]
    simp only [List.map_cons, List.sum_cons]
    omega
  -- what was taken out of the line has the signs of the flag
  have hline : line.countP isSign =
      rest.countP isSign + g.unique.elim 0 fun u => u.render.countP isSign := by
    cases hu : g.unique with
    | none =>
      rw [hu] at hextract
      rw [UniqueFlag.eq_of_extractFrom_none hextract]
      rfl
    | some u =>
      rw [hu] at hextract
      obtain ⟨pre, mark, after, rfl, rfl, hspells⟩ := UniqueFlag.exists_of_extractFrom hextract
      simp only [List.countP_append, hspells.countP_sign, Option.elim_some]
      omega
  rw [plainSigns_add, hname.1, hname.2, hline, hrest]
  simp only [List.reverse_nil, List.nil_append] at hclosed
  rw [hnone, Nat.zero_add] at hsigns
  have hsum : g.signs ≤ (ws.map (·.countP isSign)).sum := by
    rw [← hclosed]
    exact hsigns
  omega

/-- The line of a field that shows no key has the signs of the field. -/
theorem countP_line {f : Field} (h : f.Inked) (nameWidth typeWidth : Nat) {ids : Nat}
    (hshown : ¬(f.isId ∧ ids = 1)) :
    (fieldIndent ++ f.render nameWidth typeWidth ids).countP isSign = f.plainSigns := by
  obtain ⟨a, b, hline⟩ := exists_columns h nameWidth typeWidth ids
  have hattributes : f.renderAttributes ids = f.renderAttributes 0 := by
    rw [renderAttributes_eq, renderAttributes_eq, idTexts, idTexts, if_neg hshown,
      if_neg (by simp)]
  have hspaces : ∀ n : Nat, (List.replicate n ' ').countP isSign = 0 := fun n =>
    List.countP_eq_zero.2 fun c hc => by
      obtain rfl := List.eq_of_mem_replicate hc
      decide
  have hindent : fieldIndent.countP isSign = 0 := by decide
  have hblank : isSign ' ' = false := by decide
  rw [hline, hattributes, List.countP_append, Attributes.countP_spaced hblank, columns, plainSigns]
  simp only [List.countP_append, List.countP_cons, hspaces, hindent, hblank]
  simp

/-- A line that shows no key is read as a field without a key, as long as the field has all signs of
the line. -/
theorem isId_eq_false_of_line {f g : Field} (hf : f.Inked) {nameWidth typeWidth ids : Nat}
    (h : Field.parse (fieldIndent ++ f.render nameWidth typeWidth ids) = .ok (some g))
    (hshown : ¬(f.isId ∧ ids = 1)) (hsigns : g.plainSigns = f.plainSigns) : g.isId = false := by
  have hle := plainSigns_le_of_parse h
  rw [countP_line hf _ _ hshown, hsigns] at hle
  cases hid : g.isId with
  | false => rfl
  | true =>
    rw [hid, if_pos rfl] at hle
    omega

end Field

end CatalogSync
