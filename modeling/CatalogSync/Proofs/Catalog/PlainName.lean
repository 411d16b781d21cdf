import CatalogSync.Proofs.Schema.Brackets
import CatalogSync.Proofs.Text.Marks

/-!
Plain names: ASCII letters, digits and underscores. A plain name holds none of the characters that
the schema language gives a meaning.
-/

namespace CatalogSync

open Text (isBlank joined NoBlank)

/-- A letter, a digit or an underscore. -/
def isPlain (c : Char) : Bool := c.isAlphanum || c = '_'

/-- A text of letters, digits and underscores that is not empty. -/
@[mk_iff]
structure PlainName (s : String) : Prop where
  ne_nil : s.toList ≠ []
  plain : ∀ c ∈ s.toList, isPlain c = true

instance (s : String) : Decidable (PlainName s) := decidable_of_iff' _ (plainName_iff s)

theorem isBlank_of_isPlain {c : Char} (h : isPlain c = true) : isBlank c = false := by
  have hrange : (0x30 ≤ c.toNat ∧ c.toNat ≤ 0x39) ∨ (0x41 ≤ c.toNat ∧ c.toNat ≤ 0x5A) ∨
      c.toNat = 0x5F ∨ (0x61 ≤ c.toNat ∧ c.toNat ≤ 0x7A) := by
    rw [isPlain, Bool.or_eq_true, decide_eq_true_eq] at h
    rcases h with h | rfl
    · have hkinds : c.isAlphanum = (decide ('A'.val ≤ c.val ∧ c.val ≤ 'Z'.val) ||
          ('a'.val ≤ c.val && c.val ≤ 'z'.val) || ('0'.val ≤ c.val && c.val ≤ '9'.val)) := rfl
      simp only [hkinds, Bool.or_eq_true, Bool.and_eq_true, decide_eq_true_eq,
        UInt32.le_iff_toNat_le] at h
      have hcode : c.val.toNat = c.toNat := rfl
      simp only [hcode] at h
      simp at h
      omega
    · decide
  simp only [isBlank, Bool.or_eq_false_iff, Bool.and_eq_false_iff, decide_eq_false_iff_not,
    beq_eq_false_iff_ne]
  omega

namespace PlainName

variable {s : String}

theorem noBlank (h : PlainName s) : NoBlank s.toList :=
  fun c hc => isBlank_of_isPlain (h.plain c hc)

/-- A plain name holds no character that is not plain. -/
theorem not_mem (h : PlainName s) {c : Char} (hc : isPlain c = false) : c ∉ s.toList := by
  intro hmem
  rw [h.plain c hmem] at hc
  cases hc

theorem noBracket (h : PlainName s) : NoBracket s.toList := by
  intro c hc
  have hne : ∀ d : Char, isPlain d = false → c ≠ d := by
    rintro d hd rfl
    exact h.not_mem hd hc
  constructor
  · rw [← Bool.not_eq_true, isOpener_iff]
    rintro (h | h | h)
    · exact hne '(' (by decide) h
    · exact hne '[' (by decide) h
    · exact hne '{' (by decide) h
  · rw [← Bool.not_eq_true, isCloser_iff]
    rintro (h | h | h)
    · exact hne ')' (by decide) h
    · exact hne ']' (by decide) h
    · exact hne '}' (by decide) h

theorem startsWith_eq_false (h : PlainName s) {c : Char} (hc : isPlain c = false)
    (mark : List Char) : Text.startsWith (c :: mark) s.toList = false := by
  cases hs : Text.startsWith (c :: mark) s.toList with
  | false => rfl
  | true =>
    obtain ⟨rest, hrest⟩ := Text.startsWith_iff.1 hs
    exact absurd (by rw [hrest]; simp) (h.not_mem hc)

theorem append {t : String} (h : PlainName s) (ht : ∀ c ∈ t.toList, isPlain c = true) :
    PlainName (s ++ t) := by
  rw [plainName_iff, String.toList_append]
  refine ⟨List.append_ne_nil_of_left_ne_nil h.ne_nil _, fun c hc => ?_⟩
  rcases List.mem_append.1 hc with hc | hc
  · exact h.plain c hc
  · exact ht c hc

end PlainName

/-- Names with a separator between neighbours, as one text. -/
theorem toList_intercalate (separator : String) (names : List String) :
    (separator.intercalate names).toList = joined separator.toList (names.map (·.toList)) := by
  induction names with
  | nil => simp [joined]
  | cons name names ih =>
    cases names with
    | nil => simp [joined]
    | cons next names =>
      rw [String.intercalate_cons_cons, String.toList_append, String.toList_append, ih]
      rfl

end CatalogSync
