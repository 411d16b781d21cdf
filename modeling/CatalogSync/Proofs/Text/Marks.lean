import CatalogSync.Proofs.Text.Words
import Mathlib.Data.List.Infix

/-!
Marks in a text: what stands behind a mark, what stands in front of a character, and the pieces
between commas that are followed by a space. Pieces that hold no such comma are found again in the
text that joins them.
-/

namespace CatalogSync.Text

/-- No comma of the text is followed by a space. -/
def Unseparated (s : List Char) : Prop := s.IsChain fun a b => ¬(a = ',' ∧ b = ' ')

instance (s : List Char) : Decidable (Unseparated s) :=
  inferInstanceAs (Decidable (List.IsChain _ s))

theorem unseparated_of_not_mem_space {s : List Char} (h : ' ' ∉ s) : Unseparated s := by
  refine List.isChain_iff_forall_rel_of_append_cons_cons.2 fun a b x y hs hab => h ?_
  rw [hs, ← hab.2]
  simp

theorem after?_append (mark s : List Char) : after? mark (mark ++ s) = some s :=
  after?_eq_some_iff.2 rfl

theorem startsWith_append (mark s : List Char) : startsWith mark (mark ++ s) = true :=
  startsWith_iff.2 ⟨s, rfl⟩

theorem after?_eq_none_iff {mark s : List Char} :
    after? mark s = none ↔ startsWith mark s = false := by
  simp [startsWith]

/-- A text that begins with another character than the mark does not begin with the mark. -/
theorem startsWith_cons_of_ne {c d : Char} (mark s : List Char) (h : c ≠ d) :
    startsWith (c :: mark) (d :: s) = false := by
  simp [startsWith, after?, h]

/-- Whether a text begins with a mark is not changed by what follows a character that the mark
does not hold. -/
theorem startsWith_append_cons {mark : List Char} {c : Char} (h : c ∉ mark) (s t : List Char) :
    startsWith mark (s ++ c :: t) = startsWith mark s := by
  induction mark generalizing s with
  | nil => simp [startsWith, after?]
  | cons d mark ih =>
    obtain ⟨hd, hmark⟩ : c ≠ d ∧ c ∉ mark := by simpa using h
    cases s with
    | nil => exact startsWith_cons_of_ne mark t hd.symm
    | cons e s =>
      by_cases he : d = e
      · have := ih hmark s
        simp only [startsWith] at this
        simpa [startsWith, after?, he] using this
      · rw [List.cons_append, startsWith_cons_of_ne _ _ he, startsWith_cons_of_ne _ _ he]

theorem contains_iff {mark s : List Char} : contains mark s = true ↔ mark <:+: s := by
  induction s with
  | nil => simp [contains]
  | cons c s ih =>
    have hstart : startsWith mark (c :: s) = true ↔ mark <+: c :: s :=
      startsWith_iff.trans (exists_congr fun _ => eq_comm)
    rw [contains, Bool.or_eq_true, ih, hstart, List.infix_cons_iff]

theorem contains_singleton {c : Char} {s : List Char} : contains [c] s = true ↔ c ∈ s :=
  contains_iff.trans (List.singleton_infix_iff c s)

theorem mem_of_contains_cons {c : Char} {mark s : List Char} (h : contains (c :: mark) s = true) :
    c ∈ s := (contains_iff.1 h).subset List.mem_cons_self

/-- The first occurrence of a character cuts a text behind what does not hold it. -/
theorem cutAt?_append {mark : Char} {s : List Char} (h : mark ∉ s) (t : List Char) :
    cutAt? mark (s ++ mark :: t) = some (s, t) := by
  induction s with
  | nil => simp [cutAt?]
  | cons c s ih =>
    obtain ⟨hc, hs⟩ : mark ≠ c ∧ mark ∉ s := by simpa using h
    simp [cutAt?, hc.symm, ih hs]

theorem cutAt?_eq_none {mark : Char} {s : List Char} (h : mark ∉ s) : cutAt? mark s = none := by
  induction s with
  | nil => rfl
  | cons c s ih =>
    obtain ⟨hc, hs⟩ : mark ≠ c ∧ mark ∉ s := by simpa using h
    simp [cutAt?, hc.symm, ih hs]

theorem not_mem_of_cutAt?_eq_none {mark : Char} {s : List Char} (h : cutAt? mark s = none) :
    mark ∉ s := by
  intro hmem
  obtain ⟨before, rest, rfl, hbefore⟩ := List.eq_append_cons_of_mem hmem
  rw [cutAt?_append hbefore] at h
  cases h

/-! ### Pieces between commas and spaces -/

theorem splitOn_nil (mark : List Char) : splitOn mark [] = [[]] := by
  rw [splitOn, splitFrom]

theorem splitOn_separator (t : List Char) :
    splitOn [',', ' '] (',' :: ' ' :: t) = [] :: splitOn [',', ' '] t := by
  simp [splitOn, splitFrom, startsWith, after?]

/-- A comma with a space behind it is seen at a place only if both stand there. -/
theorem startsWith_separator_eq_false {c : Char} {s : List Char}
    (h : c = ',' → s.head? ≠ some ' ') : startsWith [',', ' '] (c :: s) = false := by
  by_cases hc : c = ','
  · cases s with
    | nil => simp [startsWith, after?, hc]
    | cons d s =>
      have hd : ' ' ≠ d := fun hd => h hc (by rw [hd]; rfl)
      simp [startsWith, after?, hc, hd]
  · exact startsWith_cons_of_ne _ _ (Ne.symm hc)

theorem Unseparated.head?_append {c : Char} {s t : List Char} (h : Unseparated (c :: s))
    (ht : t.head? ≠ some ' ') : c = ',' → (s ++ t).head? ≠ some ' ' := by
  intro hc
  cases s with
  | nil => exact ht
  | cons d s =>
    intro hd
    obtain rfl : d = ' ' := by simpa using hd
    exact (List.isChain_cons_cons.1 h).1 ⟨hc, rfl⟩

/-- A text without separators belongs to the first piece as a whole. -/
theorem splitOn_append {s : List Char} (hs : Unseparated s) {t : List Char}
    (ht : t.head? ≠ some ' ') :
    splitOn [',', ' '] (s ++ t) = (splitOn [',', ' '] t).modifyHead (s ++ ·) := by
  have hne : splitOn [',', ' '] t ≠ [] := by
    cases t with
    | nil => simp [splitOn_nil]
    | cons c t =>
      rw [splitOn, splitFrom]
      split
      · simp
      · split <;> simp
  obtain ⟨first, others, hpieces⟩ := List.exists_cons_of_ne_nil hne
  rw [hpieces, List.modifyHead_cons]
  induction s with
  | nil => simpa using hpieces
  | cons c s ih =>
    have hstart : startsWith [',', ' '] (c :: (s ++ t)) = false :=
      startsWith_separator_eq_false (hs.head?_append ht)
    have hrest := ih hs.tail
    rw [splitOn] at hrest ⊢
    rw [List.cons_append, splitFrom, if_neg (by simp [hstart]), hrest]
    rfl

/-- Pieces without separators are found again in the text that joins them. -/
theorem splitOn_joined {items : List (List Char)} (hne : items ≠ [])
    (h : ∀ item ∈ items, Unseparated item) :
    splitOn [',', ' '] (joined [',', ' '] items) = items := by
  induction items with
  | nil => exact absurd rfl hne
  | cons item items ih =>
    have hitem := h item List.mem_cons_self
    cases items with
    | nil =>
      have := splitOn_append hitem (t := []) (by simp)
      simpa [joined, splitOn_nil] using this
    | cons next items =>
      have hrest := ih (by simp) fun i hi => h i (List.mem_cons_of_mem _ hi)
      rw [joined, List.append_assoc, splitOn_append hitem (by simp)]
      rw [List.cons_append, List.cons_append, List.nil_append, splitOn_separator, hrest]
      simp

end CatalogSync.Text
