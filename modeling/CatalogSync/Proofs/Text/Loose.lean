import CatalogSync.Text.Loose

/-!
Texts that are written of others. A writer is told apart by what it makes of a half: when it writes
one character for every half, the same text comes out but for that character. Of two such texts the
halves are put back in their places, so that a text is broken exactly where a part of it is.
-/

namespace CatalogSync.LooseText

theorem filter_codes (t : LooseText) : t.codes.filter isHalf = t.halves := by
  cases t with
  | text s => simp [halves, codes, isHalf_toNat]
  | broken codes halved => rfl

theorem halves_ofCodes (cs : List Nat) : (ofCodes cs).halves = cs.filter isHalf := by
  by_cases h : cs.any isHalf
  · rw [ofCodes, dif_pos h]
    rfl
  · rw [ofCodes, dif_neg h, halves, eq_comm, List.filter_eq_nil_iff]
    exact fun n hn hhalf => h (List.any_eq_true.2 ⟨n, hn, hhalf⟩)

theorem isBroken_iff {t : LooseText} : t.isBroken = true ↔ t.halves ≠ [] := by
  rw [← any_isHalf_codes, ← filter_codes, ne_eq, List.filter_eq_nil_iff, List.any_eq_true]
  simp

theorem exists_text_of_whole {t : LooseText} (h : t.isBroken = false) : ∃ s, t = .text s := by
  cases t with
  | text s => exact ⟨s, rfl⟩
  | broken codes halved => cases h

theorem halfFault?_eq_none_iff {t : LooseText} : t.halfFault? = none ↔ t.isBroken = false := by
  rw [← isSome_halfFault?, Option.isSome_eq_false_iff, Option.isNone_iff_eq_none]

/-! ## One text after another -/

theorem codes_append (a b : LooseText) : (a ++ b).codes = a.codes ++ b.codes := by
  have hbroken (h : (a.codes ++ b.codes).any isHalf) : (ofCodes (a.codes ++ b.codes)).codes =
      a.codes ++ b.codes := by
    rw [ofCodes, dif_pos h]
    rfl
  cases a with
  | broken codes halved => exact hbroken (by simp [LooseText.codes, List.any_append, halved])
  | text s =>
    cases b with
    | text t => exact (congrArg _ String.toList_append).trans List.map_append
    | broken codes halved => exact hbroken (by simp [LooseText.codes, List.any_append, halved])

theorem eq_of_codes_eq {a b : LooseText} (h : a.codes = b.codes) : a = b := by
  rw [← ofCodes_codes a, ← ofCodes_codes b, h]

theorem append_assoc (a b c : LooseText) : a ++ b ++ c = a ++ (b ++ c) :=
  eq_of_codes_eq (by simp only [codes_append, List.append_assoc])

/-- Whole texts are joined as strings are. -/
theorem joined_texts (separator : String) (texts : List String) :
    joined separator (texts.map .text) = .text (separator.intercalate texts) := by
  induction texts with
  | nil => rfl
  | cons s rest ih =>
    cases rest with
    | nil => simp [joined]
    | cons t rest =>
      rw [List.map_cons, List.map_cons, joined, ← List.map_cons, ih,
        String.intercalate_cons_of_ne_nil (List.cons_ne_nil t rest)]
      rfl

/-- Behind a text whose end is whole, whole texts are joined to that end. -/
theorem joined_append_texts (separator : String) (t : LooseText) (s : String) (texts : List String) :
    joined separator ((t ++ .text s) :: texts.map .text) =
      t ++ .text (separator.intercalate (s :: texts)) := by
  cases texts with
  | nil => simp [joined]
  | cons next rest =>
    have hwhole : (.text s ++ (.text separator ++ .text (separator.intercalate (next :: rest))) :
        LooseText) = .text (s ++ (separator ++ separator.intercalate (next :: rest))) := rfl
    rw [List.map_cons, joined, ← List.map_cons, joined_texts, append_assoc, append_assoc, hwhole,
      String.intercalate_cons_of_ne_nil (List.cons_ne_nil next rest), String.append_assoc]

/-! ## Texts that differ in their halves alone -/

/-- Two texts that are the same but for halves, which a question mark shows in the one and an
exclamation mark in the other. -/
inductive Marked : List Nat → List Char → List Char → Prop
  | nil : Marked [] [] []
  | same (c : Char) {halves : List Nat} {s t : List Char} (h : Marked halves s t) :
    Marked halves (c :: s) (c :: t)
  | half {half : Nat} (hhalf : isHalf half) {halves : List Nat} {s t : List Char}
    (h : Marked halves s t) : Marked (half :: halves) ('?' :: s) ('!' :: t)

namespace Marked

variable {halves halves' : List Nat} {s s' t t' : List Char}

theorem refl (s : List Char) : Marked [] s s := by
  induction s with
  | nil => exact .nil
  | cons c s ih => exact .same c ih

theorem append (h : Marked halves s t) (h' : Marked halves' s' t') :
    Marked (halves ++ halves') (s ++ s') (t ++ t') := by
  induction h with
  | nil => exact h'
  | same c _ ih => exact .same c ih
  | half hhalf _ ih => exact .half hhalf ih

/-- A text in front of two. -/
theorem prepend (front : List Char) (h : Marked halves s t) :
    Marked halves (front ++ s) (front ++ t) := (refl front).append h

/-- A text behind two. -/
theorem followed (h : Marked halves s t) (back : List Char) :
    Marked halves (s ++ back) (t ++ back) := by
  have both := h.append (refl back)
  rwa [List.append_nil] at both

/-- Writing character by character leaves halves where they are, when both marks stay. -/
theorem flatMap {f : Char → List Char} (h : Marked halves s t) (hasks : f '?' = ['?'])
    (hcalls : f '!' = ['!']) : Marked halves (s.flatMap f) (t.flatMap f) := by
  induction h with
  | nil => exact .nil
  | same c _ ih => exact ih.prepend (f c)
  | half hhalf _ ih =>
    rw [List.flatMap_cons, List.flatMap_cons, hasks, hcalls]
    exact .half hhalf ih

/-- A text by either mark. -/
theorem shownBy (t : LooseText) :
    Marked t.halves (t.shownBy '?').toList (t.shownBy '!').toList := by
  cases t with
  | text s => exact refl s.toList
  | broken codes halved =>
    have shown (codes : List Nat) : Marked (codes.filter isHalf)
        (codes.map fun n => if isHalf n then '?' else Char.ofNat n)
        (codes.map fun n => if isHalf n then '!' else Char.ofNat n) := by
      induction codes with
      | nil => exact .nil
      | cons n codes ih =>
        by_cases hhalf : isHalf n
        · simpa [hhalf] using half hhalf ih
        · simpa [hhalf] using same (Char.ofNat n) ih
    simpa [LooseText.shownBy, LooseText.halves] using shown codes

/-- The halves are put back in their places. -/
theorem filter_putHalves (h : Marked halves s t) : (putHalves halves s t).filter isHalf = halves := by
  have plain (s t : List Char) : (putHalves [] s t).filter isHalf = [] := by
    simp [putHalves, isHalf_toNat]
  induction h with
  | nil => rfl
  | @same c halves s t _ ih =>
    cases halves with
    | nil => exact plain _ _
    | cons half halves => simpa [putHalves, isHalf_toNat] using ih
  | half hhalf _ ih => simpa [putHalves, hhalf] using ih

end Marked

/-! ## What is written -/

section

variable {parts : List LooseText} {write : Char → List Char}

theorem halves_written (h : Marked (parts.flatMap (·.halves)) (write '?') (write '!')) :
    (written parts write).halves = parts.flatMap (·.halves) := by
  rw [written, halves_ofCodes, h.filter_putHalves]

/-- A text is broken exactly where one of the texts is that it is written of. -/
theorem isBroken_written (h : Marked (parts.flatMap (·.halves)) (write '?') (write '!')) :
    (written parts write).isBroken = parts.any (·.isBroken) := by
  rw [Bool.eq_iff_iff, isBroken_iff, halves_written h, List.any_eq_true]
  simp [isBroken_iff, List.flatMap_eq_nil_iff]

end

end CatalogSync.LooseText
