import CatalogSync.Proofs.Text.Words

/-!
Readings of a text that go stretch by stretch. White space cuts the text, and what is read of the whole is
put together from what is read of the stretches; so such a reading does not see how much white space stands
in the place of a space.
-/

namespace CatalogSync.Text

/-- White space cuts a text in two that are read on their own, and nothing is read of white space itself. -/
structure Stretchwise {α : Type} (read : List Char → α) (op : α → α → α) : Prop where
  cut : ∀ s t {c : Char}, isBlank c = true → read (s ++ c :: t) = op (read s) (read t)
  nil_left : ∀ a, op (read []) a = a
  nil_right : ∀ a, op a (read []) = a

theorem stretchwise_words : Stretchwise words (· ++ ·) :=
  ⟨fun s t _ hc => words_append_cons s t hc, List.nil_append, List.append_nil⟩

namespace Stretchwise

variable {α : Type} {read : List Char → α} {op : α → α → α}

theorem append_left (h : Stretchwise read op) {run : List Char} (hrun : ∀ c ∈ run, isBlank c = true)
    (s : List Char) : read (run ++ s) = read s := by
  induction run with
  | nil => rfl
  | cons c run ih =>
    have hcut := h.cut [] (run ++ s) (hrun c List.mem_cons_self)
    rw [List.cons_append, ← List.nil_append (c :: (run ++ s)), hcut, h.nil_left,
      ih fun d hd => hrun d (List.mem_cons_of_mem _ hd)]

theorem append_right (h : Stretchwise read op) (s : List Char) {run : List Char}
    (hrun : ∀ c ∈ run, isBlank c = true) : read (s ++ run) = read s := by
  cases run with
  | nil => rw [List.append_nil]
  | cons c run =>
    have hrest := h.append_left (fun d hd => hrun d (List.mem_cons_of_mem _ hd)) []
    rw [List.append_nil] at hrest
    rw [h.cut s run (hrun c List.mem_cons_self), hrest, h.nil_right]

/-- White space of any length cuts a text. -/
theorem append_run (h : Stretchwise read op) (s : List Char) {run : List Char} (hne : run ≠ [])
    (hrun : ∀ c ∈ run, isBlank c = true) (t : List Char) :
    read (s ++ run ++ t) = op (read s) (read t) := by
  obtain ⟨c, run, rfl⟩ := List.exists_cons_of_ne_nil hne
  rw [List.append_assoc, List.cons_append, h.cut s (run ++ t) (hrun c List.mem_cons_self),
    h.append_left fun d hd => hrun d (List.mem_cons_of_mem _ hd)]

end Stretchwise

/-- The second text is the first one with white space of some length in the place of each space. -/
inductive Respaced : List Char → List Char → Prop
  | nil : Respaced [] []
  | keep {c : Char} {s t : List Char} (hc : c ≠ ' ') (h : Respaced s t) : Respaced (c :: s) (c :: t)
  | space {run s t : List Char} (hne : run ≠ []) (hrun : ∀ c ∈ run, isBlank c = true)
      (h : Respaced s t) : Respaced (' ' :: s) (run ++ t)

theorem Respaced.append_left (front : List Char) {s t : List Char} (h : Respaced s t) :
    Respaced (front ++ s) (front ++ t) := by
  induction front with
  | nil => exact h
  | cons c front ih =>
    by_cases hc : c = ' '
    · subst hc
      have hspace : ∀ c ∈ [' '], isBlank c = true := by decide
      have hfirst : Respaced (' ' :: (front ++ s)) ([' '] ++ (front ++ t)) :=
        .space (List.cons_ne_nil ' ' []) hspace ih
      exact hfirst
    · exact .keep hc ih

theorem Respaced.refl (s : List Char) : Respaced s s := by
  simpa using Respaced.nil.append_left s

/-- What is read stretch by stretch is read of a text with other white space as well. -/
theorem Respaced.read_eq {α : Type} {read : List Char → α} {op : α → α → α} (hread : Stretchwise read op)
    {s t : List Char} (h : Respaced s t) : read t = read s := by
  suffices hall : ∀ pre, read (pre ++ t) = read (pre ++ s) from hall []
  induction h with
  | nil => exact fun _ => rfl
  | @keep c s t _ _ ih =>
    intro pre
    have hshift := ih (pre ++ [c])
    rwa [List.append_assoc, List.append_assoc] at hshift
  | space hne hrun _ ih =>
    intro pre
    rw [← List.append_assoc, hread.append_run pre hne hrun, hread.cut pre _ isBlank_space]
    exact congrArg _ (ih [])

end CatalogSync.Text
