import CatalogSync.Proofs.Text.Marks

/-!
The pieces of a text between the occurrences of a mark whose first character does not stand in it a second
time. Such occurrences never overlap, so each of them cuts the text: a stretch is a piece exactly where it
holds no mark and what stands on either side of it is a mark or an end of the text.
-/

namespace CatalogSync.Text

/-! ### White space around a text -/

theorem trim_append_right (s : List Char) {r : List Char} (h : ∀ c ∈ r, isBlank c = true) :
    trim (s ++ r) = trim s := by
  have hnil : r.dropWhile isBlank = [] := by simpa using dropWhile_append_of_all (t := []) h
  rw [trim, trim, trimLeft, trimLeft, List.dropWhile_append]
  split
  next hs => rw [hnil, List.isEmpty_iff.1 hs]
  next => exact dropTrailing_append_of_all _ h

/-! ### Cutting at a mark -/

section Mark

variable {c : Char} {mark : List Char}

theorem splitFrom_ne_nil (mark : List Char) (skip : Nat) (s : List Char) :
    splitFrom mark skip s ≠ [] := by
  fun_induction splitFrom mark skip s <;> simp_all

theorem splitFrom_append_skip (mark s t : List Char) :
    splitFrom mark s.length (s ++ t) = splitOn mark t := by
  induction s with
  | nil => rfl
  | cons d s ih => exact ih

/-- A text that holds no mark is one piece. -/
theorem splitOn_of_not_isInfix {s : List Char} (h : ¬mark <:+: s) : splitOn mark s = [s] := by
  induction s with
  | nil => exact splitOn_nil mark
  | cons d s ih =>
    have hstart : startsWith mark (d :: s) = false := by
      refine Bool.eq_false_iff.2 fun hstart => h ?_
      obtain ⟨rest, hrest⟩ := startsWith_iff.1 hstart
      exact ⟨[], rest, hrest.symm⟩
    have hrest : splitOn mark s = [s] := ih fun hs => h (List.infix_cons hs)
    rw [splitOn, splitFrom, hstart, ← splitOn, hrest]
    rfl

theorem splitFrom_append_mark (hc : c ∉ mark) (t : List Char) {skip : Nat} {s : List Char}
    (hskip : skip ≤ s.length) : splitFrom (c :: mark) skip (s ++ c :: (mark ++ t)) =
      splitFrom (c :: mark) skip s ++ splitOn (c :: mark) t := by
  induction s generalizing skip with
  | nil =>
    obtain rfl : skip = 0 := Nat.le_zero.1 hskip
    have hstart : startsWith (c :: mark) (c :: (mark ++ t)) = true := startsWith_append (c :: mark) t
    have hnil : splitFrom (c :: mark) 0 [] = [[]] := splitOn_nil _
    rw [hnil, List.nil_append, splitFrom, if_pos hstart]
    exact congrArg _ (splitFrom_append_skip (c :: mark) mark t)
  | cons d s ih =>
    cases skip with
    | succ skip => exact ih (Nat.le_of_succ_le_succ hskip)
    | zero =>
      -- a mark that begins here has no room for the next one, whose first character it does not hold
      have hsame : startsWith (c :: mark) (d :: (s ++ c :: (mark ++ t))) =
          startsWith (c :: mark) (d :: s) := by
        by_cases hd : c = d
        · have hrest := startsWith_append_cons hc s (mark ++ t)
          simp only [startsWith] at hrest
          simpa [startsWith, after?, hd] using hrest
        · rw [startsWith_cons_of_ne _ _ hd, startsWith_cons_of_ne _ _ hd]
      rw [List.cons_append, splitFrom, splitFrom, hsame]
      split
      next hstart =>
        obtain ⟨rest, hrest⟩ := startsWith_iff.1 hstart
        obtain ⟨-, rfl⟩ := List.cons.inj hrest
        rw [List.cons_append, ih (by simp)]
      next =>
        rw [ih (Nat.zero_le _)]
        obtain ⟨first, others, hpieces⟩ := List.exists_cons_of_ne_nil (splitFrom_ne_nil (c :: mark) 0 s)
        rw [hpieces]
        rfl

/-- Every occurrence of the mark cuts a text in two. -/
theorem splitOn_append_mark (hc : c ∉ mark) (s t : List Char) :
    splitOn (c :: mark) (s ++ c :: (mark ++ t)) = splitOn (c :: mark) s ++ splitOn (c :: mark) t :=
  splitFrom_append_mark hc t (Nat.zero_le _)

/-- A stretch of the text that holds no mark and stands between two marks, where it does not reach to the
ends of the text. -/
def IsPiece (mark p s : List Char) : Prop :=
  ∃ x y, s = x ++ p ++ y ∧ ¬mark <:+: p ∧ (x = [] ∨ mark <:+ x) ∧ (y = [] ∨ mark <+: y)

theorem IsPiece.append_left {p s : List Char} (h : IsPiece mark p s) (t : List Char) :
    IsPiece mark p (t ++ mark ++ s) := by
  obtain ⟨x, y, rfl, hp, hx, hy⟩ := h
  refine ⟨t ++ mark ++ x, y, by simp only [List.append_assoc], hp, .inr ?_, hy⟩
  rcases hx with rfl | hx
  · rw [List.append_nil]
    exact List.suffix_append t mark
  · exact hx.trans (List.suffix_append _ x)

theorem IsPiece.append_right {p s : List Char} (h : IsPiece mark p s) (t : List Char) :
    IsPiece mark p (s ++ mark ++ t) := by
  obtain ⟨x, y, rfl, hp, hx, hy⟩ := h
  refine ⟨x, y ++ mark ++ t, by simp only [List.append_assoc], hp, hx, .inr ?_⟩
  rcases hy with rfl | hy
  · exact List.prefix_append mark t
  · rw [List.append_assoc]
    exact hy.trans (List.prefix_append y _)

theorem isPiece_of_mem_splitOn (hc : c ∉ mark) {p s : List Char} (h : p ∈ splitOn (c :: mark) s) :
    IsPiece (c :: mark) p s := by
  by_cases hmark : c :: mark <:+: s
  · obtain ⟨a, b, hs⟩ := hmark
    have hlength : s.length = a.length + mark.length + 1 + b.length := by
      simp only [← hs, List.length_append, List.length_cons, Nat.add_assoc]
    rw [← hs, List.append_assoc, List.cons_append, splitOn_append_mark hc, List.mem_append] at h
    rw [← hs]
    rcases h with h | h
    · exact (isPiece_of_mem_splitOn hc h).append_right b
    · exact (isPiece_of_mem_splitOn hc h).append_left a
  · rw [splitOn_of_not_isInfix hmark, List.mem_singleton] at h
    subst h
    exact ⟨[], [], by simp, hmark, .inl rfl, .inl rfl⟩
termination_by s.length
decreasing_by all_goals omega

theorem mem_splitOn_of_isPiece (hc : c ∉ mark) {p s : List Char} (h : IsPiece (c :: mark) p s) :
    p ∈ splitOn (c :: mark) s := by
  obtain ⟨x, y, rfl, hp, hx, hy⟩ := h
  have hright : p ∈ splitOn (c :: mark) (p ++ y) := by
    rcases hy with rfl | ⟨y, rfl⟩
    · rw [List.append_nil, splitOn_of_not_isInfix hp]
      exact List.mem_singleton_self p
    · rw [List.cons_append, splitOn_append_mark hc, splitOn_of_not_isInfix hp]
      exact List.mem_cons_self
  rcases hx with rfl | ⟨x, rfl⟩
  · exact hright
  · rw [List.append_assoc, List.append_assoc, List.cons_append, splitOn_append_mark hc]
    exact List.mem_append_right _ hright

/-- What a text is cut into are its pieces. -/
theorem mem_splitOn_iff (hc : c ∉ mark) {p s : List Char} :
    p ∈ splitOn (c :: mark) s ↔ IsPiece (c :: mark) p s :=
  ⟨isPiece_of_mem_splitOn hc, mem_splitOn_of_isPiece hc⟩

end Mark

/-! ### White space around the pieces -/

section Character

variable {c : Char}

theorem splitOn_cons_of_ne {d : Char} (h : d ≠ c) (s : List Char) :
    splitOn [c] (d :: s) = (splitOn [c] s).modifyHead (d :: ·) := by
  have hstart : startsWith [c] (d :: s) = false := startsWith_cons_of_ne [] s h.symm
  obtain ⟨first, others, hpieces⟩ := List.exists_cons_of_ne_nil (splitFrom_ne_nil [c] 0 s)
  rw [splitOn, splitFrom, hstart, splitOn, hpieces]
  rfl

/-- White space in front of a text belongs to its first piece. -/
theorem map_trim_splitOn_append_left (hc : isBlank c = false) {l : List Char}
    (hl : ∀ d ∈ l, isBlank d = true) (s : List Char) :
    (splitOn [c] (l ++ s)).map trim = (splitOn [c] s).map trim := by
  induction l with
  | nil => rfl
  | cons d l ih =>
    obtain ⟨hd, hl⟩ := List.forall_mem_cons.1 hl
    have hne : d ≠ c := by
      rintro rfl
      rw [hc] at hd
      cases hd
    obtain ⟨first, others, hpieces⟩ := List.exists_cons_of_ne_nil (splitFrom_ne_nil [c] 0 (l ++ s))
    rw [← ih hl, List.cons_append, splitOn_cons_of_ne hne, splitOn, hpieces, List.modifyHead_cons,
      List.map_cons, List.map_cons, trim_cons hd]

/-- What follows a text that does not cut it belongs to its last piece. -/
theorem exists_splitOn_append (s : List Char) {r : List Char} (hr : c ∉ r) :
    ∃ pieces last, splitOn [c] s = pieces ++ [last] ∧ splitOn [c] (s ++ r) = pieces ++ [last ++ r] := by
  induction s with
  | nil =>
    have hmark : ¬[c] <:+: r := fun h => hr ((List.singleton_infix_iff c r).1 h)
    exact ⟨[], [], splitOn_nil [c], splitOn_of_not_isInfix hmark⟩
  | cons d s ih =>
    obtain ⟨pieces, last, hs, hsr⟩ := ih
    by_cases hd : d = c
    · subst hd
      have hno : d ∉ ([] : List Char) := List.not_mem_nil
      have hcut : ∀ t, splitOn [d] (d :: t) = [] :: splitOn [d] t := fun t => by
        simpa [splitOn_nil] using splitOn_append_mark hno [] t
      exact ⟨[] :: pieces, last, by rw [hcut, hs]; rfl, by rw [List.cons_append, hcut, hsr]; rfl⟩
    · rw [List.cons_append, splitOn_cons_of_ne hd, splitOn_cons_of_ne hd, hs, hsr]
      cases pieces with
      | nil => exact ⟨[], d :: last, rfl, rfl⟩
      | cons piece pieces => exact ⟨(d :: piece) :: pieces, last, rfl, rfl⟩

/-- White space around a text is white space around its first and its last piece. -/
theorem map_trim_splitOn_trim (hc : isBlank c = false) (s : List Char) :
    (splitOn [c] (trim s)).map trim = (splitOn [c] s).map trim := by
  obtain ⟨l, r, hs, hl, hr, -⟩ := exists_append_trim s
  have hmem : c ∉ r := fun hmem => by
    rw [hr c hmem] at hc
    cases hc
  obtain ⟨pieces, last, htrim, hright⟩ := exists_splitOn_append (trim s) hmem
  calc (splitOn [c] (trim s)).map trim = (splitOn [c] (trim s ++ r)).map trim := by
        rw [htrim, hright, List.map_append, List.map_append, List.map_singleton, List.map_singleton,
          trim_append_right last hr]
    _ = (splitOn [c] (l ++ (trim s ++ r))).map trim := (map_trim_splitOn_append_left hc hl _).symm
    _ = (splitOn [c] s).map trim := by rw [← List.append_assoc, ← hs]

end Character

end CatalogSync.Text
