import CatalogSync.Proofs.Text.Marks
import CatalogSync.Schema.Parse

/-!
The sections of a text. A line that starts with the word of a section opens it, so a block of lines goes
as a whole to the section that its first line opens, as long as no other line of it opens another.
-/

namespace CatalogSync.Section

open Text (startsWith after?)

theorem mem_all (s : Section) : s ∈ all := by
  cases s <;> decide

instance {p : Section → Prop} [DecidablePred p] : Decidable (∀ s, p s) :=
  decidable_of_iff (∀ s ∈ all, p s) ⟨fun h s => h s s.mem_all, fun h s _ => h s⟩

/-! ### Lines that open a section -/

/-- A line that stays in the section of the models: it opens no header block. -/
structure Stays (line : List Char) : Prop where
  generator : startsWith "generator".toList line = false
  datasource : startsWith "datasource".toList line = false

/-- A line that belongs to the block of a model wherever it stands behind the first line: it opens
no header block and starts no model. -/
structure Inside (line : List Char) : Prop extends Stays line where
  model : startsWith "model ".toList line = false

theorem openedBy?_eq (line : List Char) : openedBy? line =
    if startsWith "generator".toList line then some .generator
    else if startsWith "datasource".toList line then some .datasource
    else if startsWith "model".toList line then some .models
    else none := by
  simp only [openedBy?, all, List.find?, word]
  cases startsWith "generator".toList line <;> cases startsWith "datasource".toList line <;>
    cases startsWith "model".toList line <;> rfl

theorem Stays.openedBy? {line : List Char} (h : Stays line) :
    openedBy? line = none ∨ openedBy? line = some .models := by
  rw [openedBy?_eq, h.generator, h.datasource]
  cases startsWith "model".toList line with
  | false => exact Or.inl rfl
  | true => exact Or.inr rfl

/-- A line with another first character than the words of sections have is no opening line. -/
theorem inside_of_head? {line : List Char} (h : ∀ c ∈ line.head?, c ∉ ['g', 'd', 'm']) :
    Inside line ∧ openedBy? line = none := by
  have hstart : ∀ (d : Char) (mark : List Char), d ∈ ['g', 'd', 'm'] →
      startsWith (d :: mark) line = false := by
    intro d mark hd
    cases line with
    | nil => rfl
    | cons c line =>
      refine Text.startsWith_cons_of_ne mark line fun hdc => h c rfl ?_
      rwa [← hdc]
  have hgenerator : startsWith "generator".toList line = false := by
    have := hstart 'g' "enerator".toList (by decide)
    simpa using this
  have hdatasource : startsWith "datasource".toList line = false := by
    have := hstart 'd' "atasource".toList (by decide)
    simpa using this
  have hmodel : startsWith "model".toList line = false := by
    have := hstart 'm' "odel".toList (by decide)
    simpa using this
  have hmodelSpace : startsWith "model ".toList line = false := by
    have := hstart 'm' "odel ".toList (by decide)
    simpa using this
  refine ⟨⟨⟨hgenerator, hdatasource⟩, hmodelSpace⟩, ?_⟩
  rw [openedBy?_eq, hgenerator, hdatasource, hmodel]
  rfl

theorem openedBy?_append (s : Section) (line : List Char) :
    openedBy? (s.word.toList ++ line) = some s := by
  have honly : (fun t : Section => startsWith t.word.toList (s.word.toList ++ line)) =
      fun t => decide (t = s) := by
    funext t
    by_cases ht : t = s
    · rw [ht, decide_eq_true rfl]
      exact Text.startsWith_append _ _
    · rw [decide_eq_false ht]
      cases t <;> cases s <;> first | exact absurd rfl ht | simp [word, startsWith, after?]
  rw [openedBy?, honly]
  cases s <;> rfl

theorem openedBy?_eq_none {line : List Char} (h : ∀ s : Section, startsWith s.word.toList line = false) :
    openedBy? line = none :=
  List.find?_eq_none.2 fun s _ => by simp [h s]

/-! ### Lines of a section -/

/-- A section stays open behind a line that opens none, or the section itself. -/
theorem getD_openedBy? {s : Section} {line : List Char}
    (h : openedBy? line = none ∨ openedBy? line = some s) : (openedBy? line).getD s = s := by
  rcases h with h | h <;> rw [h] <;> rfl

theorem assign_keep {s : Section} {ls : List (List Char)}
    (h : ∀ l ∈ ls, openedBy? l = none ∨ openedBy? l = some s) (rest : List (List Char)) :
    assign s (ls ++ rest) = ls.map (fun l => (s, l)) ++ assign s rest := by
  induction ls with
  | nil => rfl
  | cons l ls ih =>
    rw [List.cons_append, assign, getD_openedBy? (h l List.mem_cons_self),
      ih fun k hk => h k (List.mem_cons_of_mem _ hk)]
    rfl

/-- A block belongs to the section that its first line opens. -/
theorem assign_block {s : Section} (current : Section) {line : List Char}
    {ls : List (List Char)} (hline : openedBy? line = some s)
    (h : ∀ l ∈ ls, openedBy? l = none ∨ openedBy? l = some s) (rest : List (List Char)) :
    assign current (line :: ls ++ rest) =
      (line :: ls).map (fun l => (s, l)) ++ assign s rest := by
  rw [List.cons_append, assign, hline, Option.getD_some, assign_keep h]
  rfl

/-- The section that is open behind lines, `s` being open in front of them. -/
def current (s : Section) (ls : List (List Char)) : Section :=
  ls.foldl (fun s l => (openedBy? l).getD s) s

/-- The lines of one section among lines in front of which `s` is open. -/
def linesFrom (t s : Section) (ls : List (List Char)) : List (List Char) :=
  ((assign s ls).filter (·.1 = t)).map (·.2)

theorem linesOf_eq (t : Section) (ls : List (List Char)) : linesOf t ls = linesFrom t .generator ls := rfl

@[simp] theorem linesFrom_nil (t s : Section) : linesFrom t s [] = [] := rfl

theorem assign_append (s : Section) (ls rest : List (List Char)) :
    assign s (ls ++ rest) = assign s ls ++ assign (current s ls) rest := by
  induction ls generalizing s with
  | nil => rfl
  | cons l ls ih =>
    rw [List.cons_append, assign, assign, ih]
    rfl

theorem linesFrom_append (t s : Section) (ls rest : List (List Char)) :
    linesFrom t s (ls ++ rest) = linesFrom t s ls ++ linesFrom t (current s ls) rest := by
  rw [linesFrom, assign_append, List.filter_append, List.map_append]
  rfl

/-- The lines of a block are those of the section that its first line opens, and of no other. -/
theorem linesFrom_block {s : Section} (t current : Section) {line : List Char} {ls : List (List Char)}
    (hline : openedBy? line = some s) (h : ∀ l ∈ ls, openedBy? l = none ∨ openedBy? l = some s)
    (rest : List (List Char)) : linesFrom t current (line :: ls ++ rest) =
      (if s = t then line :: ls else []) ++ linesFrom t s rest := by
  have hblock : (((line :: ls).map fun l => (s, l)).filter (·.1 = t)).map (·.2) =
      if s = t then line :: ls else [] := by
    by_cases hs : s = t <;> simp [List.filter_map, Function.comp_def, hs]
  rw [linesFrom, assign_block current hline h, List.filter_append, List.map_append, hblock]
  rfl

theorem current_keep {s : Section} {ls : List (List Char)}
    (h : ∀ l ∈ ls, openedBy? l = none ∨ openedBy? l = some s) : current s ls = s := by
  induction ls with
  | nil => rfl
  | cons l ls ih =>
    rw [current, List.foldl_cons, getD_openedBy? (h l List.mem_cons_self)]
    exact ih fun k hk => h k (List.mem_cons_of_mem _ hk)

/-- A line that opens no section goes to the one that is open, and to no other. -/
theorem linesFrom_cons {line : List Char} (h : openedBy? line = none) (t s : Section)
    (rest : List (List Char)) :
    linesFrom t s (line :: rest) = if s = t then line :: linesFrom t s rest else linesFrom t s rest := by
  rw [linesFrom, assign, h, Option.getD_none, List.filter_cons]
  by_cases hs : s = t
  · simp only [hs, decide_true, if_true, List.map_cons]
    rfl
  · simp only [hs, decide_false, Bool.false_eq_true, if_false]
    rfl

/-- A line of a section opens the section, or opens none. -/
theorem of_mem_assign {s current : Section} {ls : List (List Char)} {l : List Char}
    (h : (s, l) ∈ assign current ls) :
    l ∈ ls ∧ (openedBy? l = some s ∨ openedBy? l = none) := by
  induction ls generalizing current with
  | nil => exact absurd h List.not_mem_nil
  | cons k ls ih =>
    rw [assign] at h
    rcases List.mem_cons.1 h with h | h
    · obtain ⟨hs, rfl⟩ := Prod.mk.inj h
      refine ⟨List.mem_cons_self, ?_⟩
      cases hopen : openedBy? l with
      | none => exact Or.inr rfl
      | some t =>
        rw [hopen] at hs
        exact Or.inl (congrArg some hs.symm)
    · exact ⟨List.mem_cons_of_mem _ (ih h).1, (ih h).2⟩

theorem of_mem_linesOf {s : Section} {ls : List (List Char)} {l : List Char}
    (h : l ∈ linesOf s ls) : l ∈ ls ∧ (openedBy? l = some s ∨ openedBy? l = none) := by
  obtain ⟨⟨t, k⟩, hmem, rfl⟩ := List.mem_map.1 h
  obtain ⟨hassign, ht⟩ := List.mem_filter.1 hmem
  obtain rfl : t = s := by simpa using ht
  exact of_mem_assign hassign

/-- A line of the model section stays in it. -/
theorem stays_of_mem_linesOf {ls : List (List Char)} {l : List Char}
    (h : l ∈ linesOf .models ls) : Stays l := by
  obtain ⟨-, hopen⟩ := of_mem_linesOf h
  rw [openedBy?_eq] at hopen
  have hgenerator : startsWith "generator".toList l = false := by
    cases hstart : startsWith "generator".toList l with
    | false => rfl
    | true =>
      rw [hstart, if_pos rfl] at hopen
      rcases hopen with hopen | hopen <;> cases hopen
  have hdatasource : startsWith "datasource".toList l = false := by
    cases hstart : startsWith "datasource".toList l with
    | false => rfl
    | true =>
      rw [hgenerator, hstart, if_neg Bool.false_ne_true, if_pos rfl] at hopen
      rcases hopen with hopen | hopen <;> cases hopen
  exact ⟨hgenerator, hdatasource⟩

end CatalogSync.Section
