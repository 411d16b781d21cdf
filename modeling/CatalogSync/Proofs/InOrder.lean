import Mathlib.Data.List.Forall2

/-!
Lists in the order of places. A place is a row of numbers that lead to it from the outside in, and places are
ordered by the first number in which they differ. A list is in order of what stands at places if it holds what
stands at each place, and nothing else, in the order of the places. A run over a list that collects what each
element gives is in order where each element's share is.
-/

namespace CatalogSync

variable {α β : Type}

/-- The list holds what stands at places, in their order and each once. -/
def InOrder (stands : List Nat → α → Prop) (l : List α) : Prop :=
  ∃ placed : List (List Nat × α), placed.map (·.2) = l ∧ placed.Pairwise (fun x y => x.1 < y.1) ∧
    ∀ p a, (p, a) ∈ placed ↔ stands p a

namespace InOrder

variable {stands stands' : List Nat → α → Prop} {l k : List α}

theorem congr (h : InOrder stands l) (hiff : ∀ p a, stands p a ↔ stands' p a) : InOrder stands' l := by
  obtain ⟨placed, hl, hpairwise, hmem⟩ := h
  exact ⟨placed, hl, hpairwise, fun p a => (hmem p a).trans (hiff p a)⟩

theorem mem_iff (h : InOrder stands l) {a : α} : a ∈ l ↔ ∃ p, stands p a := by
  obtain ⟨placed, rfl, -, hmem⟩ := h
  simp [← hmem]

theorem nil (h : ∀ p a, ¬stands p a) : InOrder stands [] :=
  ⟨[], rfl, .nil, fun p a => iff_of_false List.not_mem_nil (h p a)⟩

theorem singleton (a : α) : InOrder (fun p b => p = [] ∧ b = a) [a] :=
  ⟨[([], a)], rfl, List.pairwise_singleton _ _, fun p b => by simp⟩

/-- One element under a condition. -/
theorem ite (c : Prop) [Decidable c] (a : α) :
    InOrder (fun p b => p = [] ∧ c ∧ b = a) (if c then [a] else []) := by
  split
  next h => exact (singleton a).congr fun p b => by simp only [h, true_and]
  next h => exact .nil fun p b hb => h hb.2.1

/-- Changing what the list holds changes what stands at the places. -/
theorem map (h : InOrder stands l) (f : α → β) :
    InOrder (fun p b => ∃ a, stands p a ∧ f a = b) (l.map f) := by
  obtain ⟨placed, rfl, hpairwise, hmem⟩ := h
  refine ⟨placed.map fun x => (x.1, f x.2), by simp, ?_, fun p b => ?_⟩
  · exact hpairwise.map _ fun _ _ h => h
  · rw [List.mem_map]
    constructor
    · rintro ⟨⟨q, a⟩, hqa, heq⟩
      obtain ⟨rfl, rfl⟩ := Prod.mk.inj heq
      exact ⟨a, (hmem _ _).1 hqa, rfl⟩
    · rintro ⟨a, ha, rfl⟩
      exact ⟨(p, a), (hmem _ _).2 ha, rfl⟩

/-- The place behind an element that was passed. -/
def next : List Nat → List Nat
  | [] => []
  | i :: p => (i + 1) :: p

theorem next_lt_next {p q : List Nat} (h : p < q) : next p < next q := by
  cases p with
  | nil =>
    cases q with
    | nil => exact h
    | cons j q => exact List.nil_lt_cons _ _
  | cons i p =>
    cases q with
    | nil => exact absurd h (List.not_lt_nil _)
    | cons j q =>
      simp only [next, List.cons_lt_cons_iff, Nat.add_lt_add_iff_right, Nat.add_right_cancel_iff] at h ⊢
      exact h

/-- What stands in a first element comes before what stands in the elements behind it. -/
theorem append (hnil : ∀ a, ¬stands [] a) (hl : InOrder (fun p => stands (0 :: p)) l)
    (hk : InOrder (fun p => stands (next p)) k) : InOrder stands (l ++ k) := by
  obtain ⟨first, rfl, hfirst, hmem⟩ := hl
  obtain ⟨later, rfl, hlater, hmem'⟩ := hk
  refine ⟨first.map (fun x => (0 :: x.1, x.2)) ++ later.map fun x => (next x.1, x.2),
    by simp [Function.comp_def], ?_, ?_⟩
  · rw [List.pairwise_append]
    refine ⟨hfirst.map _ fun x y h => List.cons_lt_cons_iff.2 (.inr ⟨rfl, h⟩),
      hlater.map _ fun x y h => next_lt_next h, fun x hx y hy => ?_⟩
    obtain ⟨x, -, rfl⟩ := List.mem_map.1 hx
    obtain ⟨⟨q, b⟩, hq, rfl⟩ := List.mem_map.1 hy
    have hstands := (hmem' q b).1 hq
    cases q with
    | nil => exact absurd hstands (hnil b)
    | cons j q => exact List.cons_lt_cons_iff.2 (.inl (Nat.succ_pos j))
  · intro p a
    rw [List.mem_append, List.mem_map, List.mem_map]
    constructor
    · rintro (⟨⟨q, b⟩, hq, heq⟩ | ⟨⟨q, b⟩, hq, heq⟩)
      · obtain ⟨rfl, rfl⟩ := Prod.mk.inj heq
        exact (hmem _ _).1 hq
      · obtain ⟨rfl, rfl⟩ := Prod.mk.inj heq
        exact (hmem' _ _).1 hq
    · intro hp
      match p with
      | [] => exact absurd hp (hnil a)
      | 0 :: q => exact .inl ⟨(q, a), (hmem _ _).2 hp, rfl⟩
      | (i + 1) :: q => exact .inr ⟨(i :: q, a), (hmem' _ _).2 hp, rfl⟩

/-- Running over a list puts what stands in each element at the number of the element. -/
theorem flatMap {f : β → List α} {l : List β} (hnil : ∀ a, ¬stands [] a)
    (hbound : ∀ i p a, stands (i :: p) a → i < l.length)
    (h : ∀ i b, l[i]? = some b → InOrder (fun p => stands (i :: p)) (f b)) :
    InOrder stands (l.flatMap f) := by
  induction l generalizing stands with
  | nil =>
    refine .nil fun p a hp => ?_
    cases p with
    | nil => exact hnil a hp
    | cons i p => exact absurd (hbound i p a hp) (Nat.not_lt_zero i)
  | cons b l ih =>
    rw [List.flatMap_cons]
    refine append hnil (h 0 b rfl) (ih hnil (fun i p a hp => ?_) fun i c hc => h (i + 1) c hc)
    exact Nat.lt_of_succ_lt_succ (hbound (i + 1) p a hp)

/-- Picking elements keeps their order. -/
theorem map_filter (f : β → α) (keep : β → Bool) (l : List β) :
    InOrder (fun p a => ∃ i b, p = [i] ∧ l[i]? = some b ∧ keep b = true ∧ a = f b)
      ((l.filter keep).map f) := by
  have hflat : (l.filter keep).map f = l.flatMap fun b => if keep b = true then [f b] else [] := by
    induction l with
    | nil => rfl
    | cons b l ih =>
      rw [List.flatMap_cons, ← ih, List.filter_cons]
      split <;> rfl
  rw [hflat]
  refine flatMap ?_ ?_ fun i b hb => (ite _ (f b)).congr fun p a => ?_
  · rintro a ⟨i, b, hp, -⟩
    cases hp
  · rintro i p a ⟨j, b, hp, hb, -⟩
    obtain ⟨rfl, -⟩ := List.cons.inj hp
    exact (List.getElem?_eq_some_iff.1 hb).1
  · constructor
    · rintro ⟨rfl, hkeep, rfl⟩
      exact ⟨i, b, rfl, hb, hkeep, rfl⟩
    · rintro ⟨j, c, hp, hc, hkeep, rfl⟩
      obtain ⟨rfl, rfl⟩ := List.cons.inj hp
      obtain rfl := Option.some.inj (hb.symm.trans hc)
      exact ⟨rfl, hkeep, rfl⟩

end InOrder

end CatalogSync
