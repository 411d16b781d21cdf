import CatalogSync.Proofs.Text.Words
import CatalogSync.Text.Lines

/-!
The lines of a text that is put together from lines. Lines without breaks, each ended by a line
feed, are read as they were written, whatever follows them.
-/

namespace CatalogSync.Text

/-- No character of the text ends a line. -/
def NoBreak (s : List Char) : Prop := ∀ c ∈ s, isLineBreak c = false

instance (s : List Char) : Decidable (NoBreak s) :=
  inferInstanceAs (Decidable (∀ c ∈ s, isLineBreak c = false))

/-- What ends a line is white space. -/
theorem isBlank_of_isLineBreak {c : Char} (h : isLineBreak c = true) : isBlank c = true := by
  simp only [isLineBreak, isBlank, Bool.or_eq_true, Bool.and_eq_true, decide_eq_true_eq,
    beq_iff_eq] at h ⊢
  omega

theorem NoBlank.noBreak {s : List Char} (h : NoBlank s) : NoBreak s := by
  intro c hc
  cases hb : isLineBreak c with
  | false => rfl
  | true => rw [← isBlank_of_isLineBreak hb, h c hc]

theorem SingleSpaced.noBreak {s : List Char} (h : SingleSpaced s) : NoBreak s := by
  intro c hc
  cases hb : isLineBreak c with
  | false => rfl
  | true =>
    rw [h.1 c hc (isBlank_of_isLineBreak hb)] at hb
    cases hb

theorem NoBreak.append {s t : List Char} (hs : NoBreak s) (ht : NoBreak t) : NoBreak (s ++ t) := by
  intro c hc
  rcases List.mem_append.1 hc with hc | hc
  · exact hs c hc
  · exact ht c hc

theorem NoBreak.padRight {s : List Char} (h : NoBreak s) (width : Nat) : NoBreak (padRight width s) :=
  h.append fun c hc => List.eq_of_mem_replicate hc ▸ by decide

theorem NoBreak.of_isInfix {s t : List Char} (ht : NoBreak t) (h : s <:+: t) : NoBreak s :=
  fun c hc => ht c (h.subset hc)

theorem lines_cons_of_noBreak {c : Char} (hc : isLineBreak c = false) (s : List Char) :
    lines (c :: s) = match lines s with
      | [] => [[c]]
      | first :: others => (c :: first) :: others := by
  have hr : c ≠ '\r' := by
    rintro rfl
    cases hc
  rw [lines]
  · exact if_neg (by simp [hc])
  · exact fun _ h _ => hr h

theorem lines_newline (s : List Char) : lines ('\n' :: s) = [] :: lines s := by
  rw [lines]
  · rfl
  · exact fun _ h _ => by cases h

/-- A line without breaks ends at the line feed behind it. -/
theorem lines_append_newline {s : List Char} (hs : NoBreak s) (t : List Char) :
    lines (s ++ '\n' :: t) = s :: lines t := by
  induction s with
  | nil => exact lines_newline t
  | cons c s ih =>
    rw [List.cons_append, lines_cons_of_noBreak (hs c List.mem_cons_self),
      ih fun d hd => hs d (List.mem_cons_of_mem _ hd)]

theorem lines_flatMap_newline {ls : List (List Char)} (h : ∀ l ∈ ls, NoBreak l) :
    lines (ls.flatMap (· ++ ['\n'])) = ls := by
  induction ls with
  | nil => rw [List.flatMap_nil, lines]
  | cons l ls ih =>
    rw [List.flatMap_cons, List.append_assoc, List.cons_append, List.nil_append,
      lines_append_newline (h l List.mem_cons_self), ih fun k hk => h k (List.mem_cons_of_mem _ hk)]

/-- Lines that are joined by line feeds and followed by one are read as they are. -/
theorem lines_joined_append {ls : List (List Char)} (hne : ls ≠ []) (h : ∀ l ∈ ls, NoBreak l)
    (t : List Char) : lines (joined ['\n'] ls ++ '\n' :: t) = ls ++ lines t := by
  induction ls with
  | nil => exact absurd rfl hne
  | cons l ls ih =>
    have hl := h l List.mem_cons_self
    cases ls with
    | nil => exact lines_append_newline hl t
    | cons next ls =>
      rw [joined, List.append_assoc, List.append_assoc, List.cons_append, List.nil_append,
        lines_append_newline hl, ih (by simp) fun l' hl' => h l' (List.mem_cons_of_mem _ hl')]
      rfl

/-- A text without breaks is one line, unless it is empty. -/
theorem lines_of_noBreak {s : List Char} (hne : s ≠ []) (hs : NoBreak s) : lines s = [s] := by
  induction s with
  | nil => exact absurd rfl hne
  | cons c s ih =>
    rw [lines_cons_of_noBreak (hs c List.mem_cons_self)]
    cases s with
    | nil => rfl
    | cons d s => rw [ih (List.cons_ne_nil d s) fun e he => hs e (List.mem_cons_of_mem _ he)]

theorem noBreak_of_mem_lines {s l : List Char} (h : l ∈ lines s) : NoBreak l := by
  fun_induction lines s generalizing l with
  | case1 => exact absurd h List.not_mem_nil
  | case2 rest ih =>
    rcases List.mem_cons.1 h with rfl | h
    · exact fun c hc => absurd hc List.not_mem_nil
    · exact ih h
  | case3 c rest _ hc ih =>
    rcases List.mem_cons.1 h with rfl | h
    · exact fun c hc => absurd hc List.not_mem_nil
    · exact ih h
  | case4 c rest _ hc hnil ih =>
    obtain rfl : l = [c] := by simpa using h
    intro d hd
    obtain rfl : d = c := by simpa using hd
    simpa using hc
  | case5 c rest _ hc first others hcons ih =>
    rw [hcons] at ih
    rcases List.mem_cons.1 h with rfl | h
    · intro d hd
      rcases List.mem_cons.1 hd with rfl | hd
      · simpa using hc
      · exact ih List.mem_cons_self d hd
    · exact ih (List.mem_cons_of_mem _ h)

end CatalogSync.Text
