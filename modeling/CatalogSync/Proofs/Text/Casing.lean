import CatalogSync.Proofs.Text.Words
import CatalogSync.Text.Casing

/-!
Lower case of texts that are ASCII but for white space. There it goes character by character, leaves white
space as it is, and so leaves the words where they are.
-/

namespace CatalogSync.Text

/-! ### Single characters -/

theorem toLower_eq_self {c : Char} (h : ¬(0x41 ≤ c.toNat ∧ c.toNat ≤ 0x5A)) : c.toLower = c := by
  have hletter : ¬(c.val ≥ 'A'.val ∧ c.val ≤ 'Z'.val) := by
    simpa [UInt32.le_iff_toNat_le] using h
  exact dif_neg hletter

theorem toNat_toLower {c : Char} (h : 0x41 ≤ c.toNat ∧ c.toNat ≤ 0x5A) :
    c.toLower.toNat = c.toNat + 0x20 := by
  have hcode : c.val.toNat = c.toNat := rfl
  have hletter : c.val ≥ 'A'.val ∧ c.val ≤ 'Z'.val := by
    simpa [UInt32.le_iff_toNat_le] using h
  have hlower : c.toLower.val = c.val + ('a'.val - 'A'.val) := congrArg Char.val (dif_pos hletter)
  change c.toLower.val.toNat = _
  rw [hlower, UInt32.toNat_add, hcode]
  simp
  omega

/-- A character whose small letter is ASCII is ASCII. -/
theorem toNat_lt_of_toLower {c : Char} (h : c.toLower.toNat < 0x80) : c.toNat < 0x80 := by
  by_cases hletter : 0x41 ≤ c.toNat ∧ c.toNat ≤ 0x5A
  · omega
  · rwa [toLower_eq_self hletter] at h

theorem isBlank_toLower (c : Char) : isBlank c.toLower = isBlank c := by
  by_cases h : 0x41 ≤ c.toNat ∧ c.toNat ≤ 0x5A
  · have hcode := toNat_toLower h
    have hlower : isBlank c.toLower = false := by
      simp only [isBlank, hcode, Bool.or_eq_false_iff, Bool.and_eq_false_iff,
        decide_eq_false_iff_not, beq_eq_false_iff_ne]
      omega
    have hsame : isBlank c = false := by
      simp only [isBlank, Bool.or_eq_false_iff, Bool.and_eq_false_iff, decide_eq_false_iff_not,
        beq_eq_false_iff_ne]
      omega
    rw [hlower, hsame]
  · rw [toLower_eq_self h]

/-- White space past ASCII has no partner in another case. -/
theorem partnerOf?_of_isBlank {c : Char} (h : isBlank c = true) (hc : ¬c.toNat < 0x80) :
    lowerRuns.findSome? (·.partnerOf? c.toNat) = none := by
  have hruns : ∀ n ∈ [0x85, 0xA0, 0x1680, 0x2000, 0x2001, 0x2002, 0x2003, 0x2004, 0x2005, 0x2006,
      0x2007, 0x2008, 0x2009, 0x200A, 0x2028, 0x2029, 0x202F, 0x205F, 0x3000],
      lowerRuns.findSome? (·.partnerOf? n) = none := by
    decide +kernel
  refine hruns c.toNat ?_
  simp only [isBlank, Bool.or_eq_true, Bool.and_eq_true, decide_eq_true_eq, beq_iff_eq] at h
  simp only [List.mem_cons, List.not_mem_nil, or_false]
  omega

/-- The character is ASCII or white space. -/
def isAsciiOrBlank (c : Char) : Bool := c.toNat < 0x80 || isBlank c

theorem lowerChar_eq_toLower {c : Char} (h : isAsciiOrBlank c = true) : lowerChar c = c.toLower := by
  rw [isAsciiOrBlank, Bool.or_eq_true, decide_eq_true_eq] at h
  rw [lowerChar]
  by_cases hc : c.toNat < 0x80
  · rw [if_pos hc]
  · rw [if_neg hc, partnerOf?_of_isBlank (h.resolve_left hc) hc, toLower_eq_self (by omega)]

/-! ### Texts -/

theorem lower_eq_map {s : List Char} (h : ∀ c ∈ s, isAsciiOrBlank c = true) :
    lower s = s.map Char.toLower := by
  have hfrom : ∀ before, lowerFrom before s = s.map Char.toLower := by
    induction s with
    | nil => exact fun _ => rfl
    | cons c s ih =>
      intro before
      obtain ⟨hc, hs⟩ := List.forall_mem_cons.1 h
      -- neither of the letters with a rule of their own is ASCII or white space
      have hne : c ≠ 'Σ' ∧ c ≠ 'İ' := by
        constructor
        · rintro rfl
          exact absurd hc (by decide)
        · rintro rfl
          exact absurd hc (by decide)
      rw [lowerFrom, if_neg hne.1, if_neg hne.2, ih hs, lowerChar_eq_toLower hc]
      rfl
  exact hfrom []

theorem cutWhere_map {α β : Type} {p : β → Bool} {q : α → Bool} {f : α → β}
    (h : ∀ a, p (f a) = q a) (s : List α) : cutWhere p (s.map f) = (cutWhere q s).map (List.map f) := by
  induction s with
  | nil => rfl
  | cons a s ih =>
    rw [List.map_cons, cutWhere, cutWhere, h, ih]
    by_cases ha : q a = true
    · rw [if_pos ha, if_pos ha]
      rfl
    · rw [if_neg ha, if_neg ha]
      cases cutWhere q s <;> rfl

/-- A change of characters that keeps white space white space changes each word on its own. -/
theorem words_map {f : Char → Char} (h : ∀ c, isBlank (f c) = isBlank c) (s : List Char) :
    words (s.map f) = (words s).map (List.map f) := by
  rw [words, cutWhere_map h, List.filter_map, words]
  congr 2
  funext piece
  simp

theorem words_trim (s : List Char) : words (trim s) = words s := by
  obtain ⟨l, r, hs, hl, hr, -⟩ := exists_append_trim s
  calc words (trim s) = words (l ++ trim s ++ r) := by
        rw [words_append_right_of_all _ hr, words_append_of_all hl]
    _ = words s := by rw [← hs]

end CatalogSync.Text
