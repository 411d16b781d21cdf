import CatalogSync.Text.Blank
import CatalogSync.Text.Split
import Mathlib.Data.List.Chain

/-!
The words of a text, and texts that are their own words a space apart. Everything about `words`
follows from one equation: a blank cuts a text in two. A text is `SingleSpaced` where its only
white space is spaces that stand alone; such a text is put together again by joining its words.
-/

namespace CatalogSync.Text

/-- What holds of each character of a text is decided by these, not by all characters there are. -/
instance decidableForallMem (s : List Char) (p : Char → Prop) [DecidablePred p] :
    Decidable (∀ c ∈ s, p c) := List.decidableBAll p s

instance decidableForallMemOption (o : Option Char) (p : Char → Prop) [DecidablePred p] :
    Decidable (∀ c ∈ o, p c) := Option.decidableForallMem o

/-- No character of the text is white space. -/
def NoBlank (s : List Char) : Prop := ∀ c ∈ s, isBlank c = false

/-- The only white space of the text is spaces, no two of them next to each other. -/
def SingleSpaced (s : List Char) : Prop :=
  (∀ c ∈ s, isBlank c = true → c = ' ') ∧ s.IsChain fun a b => ¬(a = ' ' ∧ b = ' ')

instance (s : List Char) : Decidable (NoBlank s) :=
  inferInstanceAs (Decidable (∀ c ∈ s, isBlank c = false))

instance (s : List Char) : Decidable (SingleSpaced s) :=
  inferInstanceAs (Decidable ((∀ c ∈ s, isBlank c = true → c = ' ') ∧
    s.IsChain fun a b => ¬(a = ' ' ∧ b = ' ')))

theorem NoBlank.append {s t : List Char} (hs : NoBlank s) (ht : NoBlank t) : NoBlank (s ++ t) := by
  intro c hc
  rcases List.mem_append.1 hc with hc | hc
  · exact hs c hc
  · exact ht c hc

theorem NoBlank.singleSpaced {s : List Char} (hs : NoBlank s) : SingleSpaced s := by
  refine ⟨fun c hc hb => ?_, ?_⟩
  · rw [hs c hc] at hb
    cases hb
  · refine List.isChain_iff_forall_rel_of_append_cons_cons.2 fun a b x y hs' hab => ?_
    have ha : isBlank a = false := hs a (by simp [hs'])
    rw [hab.1] at ha
    cases ha

/-- Two texts may be put together unless a space ends one and begins the other. -/
theorem SingleSpaced.append {s t : List Char} (hs : SingleSpaced s) (ht : SingleSpaced t)
    (h : s.getLast? ≠ some ' ' ∨ t.head? ≠ some ' ') : SingleSpaced (s ++ t) := by
  refine ⟨fun c hc => ?_, ?_⟩
  · rcases List.mem_append.1 hc with hc | hc
    · exact hs.1 c hc
    · exact ht.1 c hc
  · refine List.isChain_append.2 ⟨hs.2, ht.2, fun a ha b hb hab => ?_⟩
    rcases h with h | h
    · exact h (hab.1 ▸ ha)
    · exact h (hab.2 ▸ hb)

theorem SingleSpaced.of_isInfix {s t : List Char} (ht : SingleSpaced t) (h : s <:+: t) :
    SingleSpaced s :=
  ⟨fun c hc => ht.1 c (h.subset hc), List.IsChain.infix ht.2 h⟩

/-! ### Trimming -/

section Trimming

variable {α : Type} {p : α → Bool}

theorem dropTrailing_append_of_all (s : List α) {t : List α} (h : ∀ a ∈ t, p a = true) :
    dropTrailing p (s ++ t) = dropTrailing p s := by
  induction s with
  | nil =>
    induction t with
    | nil => rfl
    | cons a t ih =>
      have ht : dropTrailing p t = [] := ih fun b hb => h b (List.mem_cons_of_mem _ hb)
      simp only [List.nil_append, dropTrailing, ht, h a List.mem_cons_self, if_true]
  | cons a s ih => simp only [List.cons_append, dropTrailing, ih]

theorem dropTrailing_eq_self {s : List α} (h : ∀ a ∈ s.getLast?, p a = false) :
    dropTrailing p s = s := by
  induction s with
  | nil => rfl
  | cons a s ih =>
    cases s with
    | nil =>
      have ha : p a = false := h a rfl
      simp [dropTrailing, ha]
    | cons b s =>
      have hs := ih fun c hc => h c (by simpa [List.getLast?_cons_cons] using hc)
      rw [dropTrailing, hs]

/-- What is dropped passes the test, and what is kept ends with an element that fails it. -/
theorem exists_append_dropTrailing (s : List α) :
    (∃ t, (∀ a ∈ t, p a = true) ∧ s = dropTrailing p s ++ t) ∧
      ∀ a ∈ (dropTrailing p s).getLast?, p a = false := by
  induction s with
  | nil => exact ⟨⟨[], by simp, rfl⟩, by simp [dropTrailing]⟩
  | cons a s ih =>
    obtain ⟨⟨t, ht, hs⟩, hlast⟩ := ih
    rw [dropTrailing]
    cases hk : dropTrailing p s with
    | nil =>
      rw [hk] at hs
      cases ha : p a with
      | true => exact ⟨⟨a :: t, by simpa [ha] using ht, by simpa using hs⟩, by simp⟩
      | false => exact ⟨⟨t, ht, by simpa using hs⟩, by simp [ha]⟩
    | cons b kept =>
      rw [hk] at hs hlast
      refine ⟨⟨t, ht, by simpa using hs⟩, fun c hc => hlast c ?_⟩
      simpa [List.getLast?_cons_cons] using hc

/-- An element that fails the test is kept, with whatever stands in front of it. -/
theorem dropTrailing_append_cons (s : List α) {a : α} (h : p a = false) (t : List α) :
    dropTrailing p (s ++ a :: t) = s ++ a :: dropTrailing p t := by
  induction s with
  | nil =>
    rw [List.nil_append, List.nil_append, dropTrailing]
    cases dropTrailing p t with
    | nil => simp [h]
    | cons b kept => rfl
  | cons b s ih =>
    rw [List.cons_append, dropTrailing, ih]
    cases s <;> rfl

end Trimming

/-- The text does not end with white space. -/
def NoTrailingBlank (s : List Char) : Prop := ∀ c ∈ s.getLast?, isBlank c = false

instance (s : List Char) : Decidable (NoTrailingBlank s) :=
  inferInstanceAs (Decidable (∀ c ∈ s.getLast?, isBlank c = false))

theorem NoBlank.noTrailingBlank {s : List Char} (h : NoBlank s) : NoTrailingBlank s :=
  fun c hc => h c (List.mem_of_getLast? hc)

theorem noTrailingBlank_append_cons {c : Char} (hc : isBlank c = false) (s : List Char) :
    NoTrailingBlank (s ++ [c]) := by
  intro d hd
  rw [List.getLast?_append] at hd
  obtain rfl : c = d := by simpa using hd
  exact hc

theorem NoTrailingBlank.append {s t : List Char} (ht : NoTrailingBlank t) (hne : t ≠ []) :
    NoTrailingBlank (s ++ t) := by
  intro c hc
  rw [List.getLast?_append_of_ne_nil s hne] at hc
  exact ht c hc

theorem trimRight_eq_self {s : List Char} (h : NoTrailingBlank s) : trimRight s = s :=
  dropTrailing_eq_self h

theorem trimRight_prefix (s : List Char) : trimRight s <+: s := by
  obtain ⟨⟨t, -, ht⟩, -⟩ := exists_append_dropTrailing (p := isBlank) s
  exact ⟨t, ht.symm⟩

theorem dropWhile_append_of_all {s t : List Char} (h : ∀ c ∈ s, isBlank c = true) :
    (s ++ t).dropWhile isBlank = t.dropWhile isBlank := by
  induction s with
  | nil => rfl
  | cons c s ih =>
    rw [List.cons_append, List.dropWhile_cons_of_pos (h c List.mem_cons_self)]
    exact ih fun d hd => h d (List.mem_cons_of_mem _ hd)

theorem dropWhile_eq_self {s : List Char} (h : ∀ c ∈ s.head?, isBlank c = false) :
    s.dropWhile isBlank = s := by
  cases s with
  | nil => rfl
  | cons c s =>
    have hc : isBlank c = false := h c rfl
    exact List.dropWhile_cons_of_neg (by simp [hc])

/-- White space around a text that neither begins nor ends with any is what trimming takes away. -/
theorem trim_append {s : List Char} (l r : List Char) (hl : ∀ c ∈ l, isBlank c = true)
    (hr : ∀ c ∈ r, isBlank c = true) (hfirst : ∀ c ∈ s.head?, isBlank c = false)
    (hlast : ∀ c ∈ s.getLast?, isBlank c = false) : trim (l ++ s ++ r) = s := by
  rw [trim, trimLeft, trimRight, List.append_assoc, dropWhile_append_of_all hl]
  cases s with
  | nil =>
    have hnil : r.dropWhile isBlank = [] := by
      simpa using dropWhile_append_of_all (t := []) hr
    rw [List.nil_append, hnil, dropTrailing]
  | cons c s =>
    rw [dropWhile_eq_self (by simpa using hfirst), dropTrailing_append_of_all _ hr,
      dropTrailing_eq_self hlast]

theorem trim_eq_self {s : List Char} (hfirst : ∀ c ∈ s.head?, isBlank c = false)
    (hlast : ∀ c ∈ s.getLast?, isBlank c = false) : trim s = s := by
  simpa using trim_append [] [] (by simp) (by simp) hfirst hlast

theorem trim_cons {c : Char} (h : isBlank c = true) (s : List Char) : trim (c :: s) = trim s := by
  rw [trim, trimLeft, List.dropWhile_cons_of_pos h]
  rfl

/-- A text that trimming leaves as it is has no white space at either end. -/
theorem trim_eq_self_iff {s : List Char} : trim s = s ↔
    (∀ c ∈ s.head?, isBlank c = false) ∧ ∀ c ∈ s.getLast?, isBlank c = false := by
  constructor
  · intro h
    have hlast : ∀ c ∈ s.getLast?, isBlank c = false := by
      rw [← h]
      exact (exists_append_dropTrailing (trimLeft s)).2
    refine ⟨fun c hc => ?_, hlast⟩
    have hlen : (trimRight (trimLeft s)).length ≤ (trimLeft s).length := by
      obtain ⟨⟨t, -, ht⟩, -⟩ := exists_append_dropTrailing (p := isBlank) (trimLeft s)
      have := congrArg List.length ht
      simp only [List.length_append] at this
      rw [trimRight]
      omega
    have hself : trimLeft s = s := by
      refine (List.dropWhile_suffix (l := s) isBlank).eq_of_length_le ?_
      rw [trim] at h
      rw [h] at hlen
      exact hlen
    cases s with
    | nil => simp at hc
    | cons d s =>
      obtain rfl : d = c := by simpa using hc
      cases hd : isBlank d with
      | false => rfl
      | true =>
        rw [trimLeft, List.dropWhile_cons_of_pos hd] at hself
        have hle := (List.dropWhile_suffix (l := s) isBlank).length_le
        have := congrArg List.length hself
        simp only [List.length_cons] at this
        omega
  · rintro ⟨hfirst, hlast⟩
    exact trim_eq_self hfirst hlast

/-- Trimming leaves a text without the white space in front of it and behind it. -/
theorem exists_append_trim (s : List Char) : ∃ l r, s = l ++ trim s ++ r ∧
    (∀ c ∈ l, isBlank c = true) ∧ (∀ c ∈ r, isBlank c = true) ∧ NoTrailingBlank (trim s) := by
  obtain ⟨⟨r, hr, hsplit⟩, hlast⟩ := exists_append_dropTrailing (p := isBlank) (trimLeft s)
  refine ⟨s.takeWhile isBlank, r, ?_, fun c hc => List.all_eq_true.1 List.all_takeWhile c hc, hr,
    hlast⟩
  have hwhole : trim s ++ r = trimLeft s := hsplit.symm
  rw [List.append_assoc, hwhole]
  exact List.takeWhile_append_dropWhile.symm

theorem isInfix_trim (s : List Char) : trim s <:+: s := by
  obtain ⟨l, r, hsplit, -⟩ := exists_append_trim s
  exact ⟨l, r, hsplit.symm⟩

/-- What is left after trimming is trimmed. -/
theorem trim_trim (s : List Char) : trim (trim s) = trim s := by
  obtain ⟨⟨r, -, hsplit⟩, hlast⟩ := exists_append_dropTrailing (p := isBlank) (trimLeft s)
  refine trim_eq_self (fun c hc => ?_) hlast
  have hwhole : trimLeft s = trim s ++ r := hsplit
  have hhead : c ∈ (trimLeft s).head? := by
    obtain ⟨tail, htail⟩ := List.head?_eq_some_iff.1 hc
    rw [hwhole, htail]
    rfl
  have := List.head?_dropWhile_not isBlank s
  rw [trimLeft] at hhead
  rw [hhead] at this
  simpa using this

/-- What trimming takes away at the end is what it takes away without looking at the front, where
anything is left. -/
theorem exists_trimRight_eq {s : List Char} (h : trim s ≠ []) :
    ∃ l, trimRight s = l ++ trim s ∧ ∀ c ∈ l, isBlank c = true := by
  obtain ⟨l, r, hsplit, hl, hr, hlast⟩ := exists_append_trim s
  refine ⟨l, ?_, hl⟩
  calc trimRight s = trimRight (l ++ trim s ++ r) := by rw [← hsplit]
    _ = trimRight (l ++ trim s) := dropTrailing_append_of_all _ hr
    _ = l ++ trim s := trimRight_eq_self (hlast.append h)

/-! ### Words -/

theorem cutWhere_append_cons {α : Type} {p : α → Bool} (s t : List α) {a : α} (h : p a = true) :
    cutWhere p (s ++ a :: t) = cutWhere p s ++ cutWhere p t := by
  induction s with
  | nil => simp [cutWhere, h]
  | cons b s ih =>
    rw [List.cons_append, cutWhere, cutWhere]
    by_cases hb : p b = true
    · rw [if_pos hb, if_pos hb, ih, List.cons_append]
    · rw [if_neg hb, if_neg hb, ih]
      obtain ⟨first, others, hcut⟩ := List.exists_cons_of_ne_nil (cutWhere_ne_nil p s)
      rw [hcut, List.cons_append]
      rfl

theorem cutWhere_of_none {α : Type} {p : α → Bool} {s : List α} (h : ∀ a ∈ s, p a = false) :
    cutWhere p s = [s] := by
  induction s with
  | nil => rfl
  | cons a s ih =>
    rw [cutWhere, ih fun b hb => h b (List.mem_cons_of_mem _ hb), if_neg]
    simp [h a List.mem_cons_self]

/-- A blank cuts a text in two; everything about `words` follows from this. -/
theorem words_append_cons (s t : List Char) {c : Char} (h : isBlank c = true) :
    words (s ++ c :: t) = words s ++ words t := by
  rw [words, cutWhere_append_cons s t h, List.filter_append]
  rfl

@[simp] theorem words_nil : words [] = [] := rfl

theorem words_of_noBlank {s : List Char} (hne : s ≠ []) (h : NoBlank s) : words s = [s] := by
  rw [words, cutWhere_of_none h]
  simp [hne]

theorem words_append_of_all {s t : List Char} (h : ∀ c ∈ s, isBlank c = true) :
    words (s ++ t) = words t := by
  induction s with
  | nil => rfl
  | cons c s ih =>
    rw [List.cons_append, ← List.nil_append (c :: (s ++ t)),
      words_append_cons [] _ (h c List.mem_cons_self),
      ih fun d hd => h d (List.mem_cons_of_mem _ hd)]
    rfl

theorem words_of_all {s : List Char} (h : ∀ c ∈ s, isBlank c = true) : words s = [] := by
  simpa using words_append_of_all (t := []) h

/-- White space behind a text adds no word and joins none to what follows. -/
theorem words_append_right_of_all (s : List Char) {t : List Char}
    (h : ∀ c ∈ t, isBlank c = true) : words (s ++ t) = words s := by
  cases t with
  | nil => rw [List.append_nil]
  | cons c t =>
    rw [words_append_cons s t (h c List.mem_cons_self),
      words_of_all fun d hd => h d (List.mem_cons_of_mem _ hd), List.append_nil]

/-- A piece holds characters of the text, but none at which it is cut. -/
theorem of_mem_cutWhere {α : Type} {p : α → Bool} {s w : List α} (h : w ∈ cutWhere p s) :
    ∀ a ∈ w, p a = false ∧ a ∈ s := by
  induction s generalizing w with
  | nil =>
    obtain rfl : w = [] := by simpa [cutWhere] using h
    exact fun a ha => absurd ha List.not_mem_nil
  | cons b s ih =>
    have hrest : ∀ v ∈ cutWhere p s, ∀ a ∈ v, p a = false ∧ a ∈ b :: s :=
      fun v hv a ha => ⟨(ih hv a ha).1, List.mem_cons_of_mem b (ih hv a ha).2⟩
    rw [cutWhere] at h
    cases hb : p b with
    | true =>
      rw [if_pos hb] at h
      rcases List.mem_cons.1 h with rfl | h
      · exact fun a ha => absurd ha List.not_mem_nil
      · exact hrest w h
    | false =>
      rw [if_neg (by simp [hb])] at h
      obtain ⟨first, others, hcut⟩ := List.exists_cons_of_ne_nil (cutWhere_ne_nil p s)
      rw [hcut] at h hrest
      rcases List.mem_cons.1 h with rfl | h
      · intro a ha
        rcases List.mem_cons.1 ha with rfl | ha
        · exact ⟨hb, List.mem_cons_self⟩
        · exact hrest first List.mem_cons_self a ha
      · exact hrest w (List.mem_cons_of_mem _ h)

/-- The text ends behind its first piece or is cut there. -/
theorem exists_of_cutWhere_eq_cons {α : Type} {p : α → Bool} {s first : List α}
    {others : List (List α)} (h : cutWhere p s = first :: others) :
    s = first ∨ ∃ a t, p a = true ∧ s = first ++ a :: t := by
  induction s generalizing first others with
  | nil => exact Or.inl (List.cons.inj h).1
  | cons b s ih =>
    rw [cutWhere] at h
    cases hb : p b with
    | true =>
      rw [if_pos hb] at h
      obtain ⟨hfirst, -⟩ := List.cons.inj h
      exact Or.inr ⟨b, s, hb, by rw [← hfirst]; rfl⟩
    | false =>
      rw [if_neg (by simp [hb])] at h
      obtain ⟨start, rest, hcut⟩ := List.exists_cons_of_ne_nil (cutWhere_ne_nil p s)
      rw [hcut] at h
      obtain ⟨hfirst, -⟩ := List.cons.inj h
      rcases ih hcut with hs | ⟨a, t, ha, hs⟩
      · exact Or.inl (by rw [← hfirst, hs])
      · exact Or.inr ⟨a, t, ha, by rw [← hfirst, hs]; rfl⟩

/-- A piece behind the first one stands behind a cut, and the text ends behind it or is cut
again. -/
theorem exists_of_mem_tail_cutWhere {α : Type} {p : α → Bool} {s w : List α}
    (h : w ∈ (cutWhere p s).tail) : ∃ x a y, p a = true ∧ s = x ++ a :: y ∧
      (y = w ∨ ∃ b z, p b = true ∧ y = w ++ b :: z) := by
  induction s with
  | nil => exact absurd h List.not_mem_nil
  | cons b s ih =>
    obtain ⟨first, others, hcut⟩ := List.exists_cons_of_ne_nil (cutWhere_ne_nil p s)
    have htail : w ∈ others → ∃ x a y, p a = true ∧ b :: s = x ++ a :: y ∧
        (y = w ∨ ∃ c z, p c = true ∧ y = w ++ c :: z) := by
      intro hw
      obtain ⟨x, a, y, ha, hs, hy⟩ := ih (by rw [hcut]; exact hw)
      exact ⟨b :: x, a, y, ha, by rw [hs]; rfl, hy⟩
    rw [cutWhere, hcut] at h
    cases hb : p b with
    | true =>
      rw [if_pos hb, List.tail_cons] at h
      rcases List.mem_cons.1 h with rfl | h
      · exact ⟨[], b, s, hb, rfl, exists_of_cutWhere_eq_cons hcut⟩
      · exact htail h
    | false =>
      rw [if_neg (by simp [hb]), List.tail_cons] at h
      exact htail h

/-- A word is not empty and holds no white space. -/
theorem mem_words {s w : List Char} (h : w ∈ words s) : w ≠ [] ∧ NoBlank w := by
  obtain ⟨hw, hne⟩ := List.mem_filter.1 h
  exact ⟨by simpa using hne, fun c hc => (of_mem_cutWhere hw c hc).1⟩

/-! ### Single-spaced texts -/

theorem joined_cons {separator piece : List Char} {rest : List (List Char)} (h : rest ≠ []) :
    joined separator (piece :: rest) = piece ++ separator ++ joined separator rest := by
  cases rest with
  | nil => exact absurd rfl h
  | cons next rest => rfl

theorem joined_append (separator : List Char) {l r : List (List Char)} (hl : l ≠ [])
    (hr : r ≠ []) : joined separator (l ++ r) =
      joined separator l ++ separator ++ joined separator r := by
  induction l with
  | nil => exact absurd rfl hl
  | cons piece l ih =>
    cases l with
    | nil => simp [joined_cons hr, joined]
    | cons next l =>
      have hnext : next :: l ++ r ≠ [] := by simp
      rw [List.cons_append, joined_cons hnext, ih (by simp), joined_cons (List.cons_ne_nil _ _)]
      simp only [List.append_assoc]

theorem forall_mem_joined {separator : List Char} {p : Char → Prop} (hsep : ∀ c ∈ separator, p c)
    {pieces : List (List Char)} (h : ∀ piece ∈ pieces, ∀ c ∈ piece, p c) :
    ∀ c ∈ joined separator pieces, p c := by
  induction pieces with
  | nil => exact fun c hc => absurd hc List.not_mem_nil
  | cons piece pieces ih =>
    have hpiece := h piece List.mem_cons_self
    have hrest := ih fun q hq => h q (List.mem_cons_of_mem _ hq)
    cases pieces with
    | nil => exact hpiece
    | cons next pieces =>
      intro c hc
      rw [joined, List.append_assoc, List.mem_append, List.mem_append] at hc
      rcases hc with hc | hc | hc
      · exact hpiece c hc
      · exact hsep c hc
      · exact hrest c hc

/-- Single-spaced texts that begin with no space may be joined with a separator that does not. -/
theorem singleSpaced_joined {separator : List Char} (hsep : SingleSpaced separator)
    (hne : separator ≠ []) (hfirst : separator.head? ≠ some ' ') {pieces : List (List Char)}
    (h : ∀ piece ∈ pieces, SingleSpaced piece ∧ piece.head? ≠ some ' ') :
    SingleSpaced (joined separator pieces) ∧ (joined separator pieces).head? ≠ some ' ' := by
  induction pieces with
  | nil => exact ⟨NoBlank.singleSpaced (fun c hc => absurd hc List.not_mem_nil), by simp [joined]⟩
  | cons piece pieces ih =>
    obtain ⟨hpiece, hhead⟩ := h piece List.mem_cons_self
    obtain ⟨hrest, hnext⟩ := ih fun q hq => h q (List.mem_cons_of_mem _ hq)
    cases pieces with
    | nil => exact ⟨hpiece, hhead⟩
    | cons next pieces =>
      rw [joined]
      refine ⟨(hpiece.append hsep (Or.inr hfirst)).append hrest (Or.inr hnext), ?_⟩
      cases piece with
      | nil =>
        rw [List.nil_append, List.head?_append_of_ne_nil _ hne]
        exact hfirst
      | cons c piece => exact hhead

/-- Pieces that were cut at one character are put together again by joining them with it. -/
theorem joined_cutWhere {p : Char → Bool} {sep : Char} {s : List Char}
    (h : ∀ c ∈ s, p c = true → c = sep) : joined [sep] (cutWhere p s) = s := by
  induction s with
  | nil => rfl
  | cons c s ih =>
    have hs := ih fun d hd => h d (List.mem_cons_of_mem _ hd)
    rw [cutWhere]
    cases hc : p c with
    | true =>
      rw [if_pos rfl, joined_cons (cutWhere_ne_nil p s), hs, h c List.mem_cons_self hc]
      rfl
    | false =>
      rw [if_neg (by simp)]
      obtain ⟨first, others, hcut⟩ := List.exists_cons_of_ne_nil (cutWhere_ne_nil p s)
      rw [hcut] at hs ⊢
      rw [← hs]
      cases others <;> rfl

/-- Behind its first piece, a text without adjacent spaces and without one at its end has no empty
piece. -/
theorem ne_nil_of_mem_tail_cutWhere {s : List Char} (h : SingleSpaced s)
    (hlast : s.getLast? ≠ some ' ') : ∀ w ∈ (cutWhere isBlank s).tail, w ≠ [] := by
  induction s with
  | nil => simp [cutWhere]
  | cons c s ih =>
    have hs : SingleSpaced s := h.of_isInfix (List.suffix_cons c s).isInfix
    cases s with
    | nil =>
      cases hc : isBlank c with
      | true =>
        have hsp : c = ' ' := h.1 c List.mem_cons_self hc
        exact absurd (by rw [hsp]; rfl) hlast
      | false => simp [cutWhere, hc]
    | cons d s =>
      have htail := ih hs (by simpa [List.getLast?_cons_cons] using hlast)
      have hcut := cutWhere_ne_nil isBlank (d :: s)
      rw [cutWhere]
      cases hc : isBlank c with
      | true =>
        -- the piece that starts behind a space is not empty, since no second space follows
        have hsp : c = ' ' := h.1 c List.mem_cons_self hc
        have hd : isBlank d = false := by
          cases hd : isBlank d with
          | false => rfl
          | true =>
            have := (List.isChain_cons_cons.1 h.2).1
            exact absurd ⟨hsp, h.1 d (by simp) hd⟩ this
        rw [if_pos rfl, List.tail_cons]
        rw [cutWhere, if_neg (by simp [hd])] at htail ⊢
        obtain ⟨first, others, hs'⟩ := List.exists_cons_of_ne_nil (cutWhere_ne_nil isBlank s)
        rw [hs'] at htail ⊢
        intro w hw
        rcases List.mem_cons.1 hw with rfl | hw
        · simp
        · exact htail w hw
      | false =>
        rw [if_neg (by simp)]
        obtain ⟨first, others, hs'⟩ := List.exists_cons_of_ne_nil hcut
        rw [hs'] at htail ⊢
        exact htail

/-- The words of a single-spaced text without spaces at its ends are all its pieces. -/
theorem words_eq_cutWhere {s : List Char} (h : SingleSpaced s) (hne : s ≠ [])
    (hfirst : s.head? ≠ some ' ') (hlast : s.getLast? ≠ some ' ') :
    words s = cutWhere isBlank s := by
  refine List.filter_eq_self.2 fun w hw => ?_
  have htail := ne_nil_of_mem_tail_cutWhere h hlast
  cases s with
  | nil => exact absurd rfl hne
  | cons c s =>
    have hc : isBlank c = false := by
      cases hc : isBlank c with
      | false => rfl
      | true => exact absurd (by rw [h.1 c List.mem_cons_self hc]; rfl) hfirst
    rw [cutWhere, if_neg (by simp [hc])] at hw htail
    obtain ⟨first, others, hs'⟩ := List.exists_cons_of_ne_nil (cutWhere_ne_nil isBlank s)
    rw [hs'] at hw htail
    rcases List.mem_cons.1 hw with rfl | hw
    · simp
    · simpa using htail w hw

/-- Words that are joined with spaces are the words of what comes out. -/
theorem words_joined {us : List (List Char)} (h : ∀ u ∈ us, u ≠ [] ∧ NoBlank u) :
    words (joined [' '] us) = us := by
  induction us with
  | nil => rfl
  | cons u us ih =>
    obtain ⟨hne, hu⟩ := h u List.mem_cons_self
    cases us with
    | nil => exact words_of_noBlank hne hu
    | cons next us =>
      have hrest := ih fun v hv => h v (List.mem_cons_of_mem _ hv)
      have htext : joined [' '] (u :: next :: us) = u ++ ' ' :: joined [' '] (next :: us) := by
        simp [joined]
      rw [htext, words_append_cons _ _ isBlank_space, words_of_noBlank hne hu, hrest]
      rfl

/-- Words that are joined with spaces are single-spaced, without spaces at the ends. -/
theorem singleSpaced_joined_words {l : List (List Char)} (h : ∀ u ∈ l, u ≠ [] ∧ NoBlank u) :
    SingleSpaced (joined [' '] l) ∧ (∀ c ∈ (joined [' '] l).head?, isBlank c = false) ∧
      NoTrailingBlank (joined [' '] l) := by
  induction l with
  | nil => exact ⟨by decide, by decide, by decide⟩
  | cons u us ih =>
    obtain ⟨hne, hu⟩ := h u List.mem_cons_self
    obtain ⟨hspaced, hfirst, hlast⟩ := ih fun v hv => h v (List.mem_cons_of_mem _ hv)
    have hhead : ∀ t : List Char, ∀ c ∈ (u ++ t).head?, isBlank c = false := by
      intro t c hc
      rw [List.head?_append_of_ne_nil _ hne] at hc
      exact hu c (List.mem_of_head? hc)
    cases us with
    | nil => exact ⟨hu.singleSpaced, by simpa [joined] using hhead [], hu.noTrailingBlank⟩
    | cons next us =>
      have hend : u.getLast? ≠ some ' ' := fun hc => by
        have := hu ' ' (List.mem_of_getLast? hc)
        rw [isBlank_space] at this
        cases this
      have hnext : (joined [' '] (next :: us)).head? ≠ some ' ' := fun hc => by
        have := hfirst ' ' hc
        rw [isBlank_space] at this
        cases this
      have hrest : joined [' '] (next :: us) ≠ [] := by
        obtain ⟨hnil, -⟩ := h next (by simp)
        cases us with
        | nil => exact hnil
        | cons _ _ => simp [joined]
      rw [joined]
      refine ⟨(hu.singleSpaced.append (by decide) (Or.inl hend)).append hspaced (Or.inr hnext), ?_,
        hlast.append hrest⟩
      rw [List.append_assoc]
      exact hhead _

end CatalogSync.Text
