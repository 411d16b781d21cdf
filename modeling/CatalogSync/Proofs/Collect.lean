import Mathlib.Data.List.Forall2

/-!
Lists of results. Collecting succeeds where each item does, and gives the results in their order; a run
over a list that fails does so with the first fault that one of the elements gives.
-/

namespace CatalogSync

variable {α β ε : Type} {f : α → Except ε β}

theorem eq_ok_of_mem_toOption {x : Except ε α} {a : α} (h : a ∈ x.toOption) : x = .ok a := by
  cases x with
  | error e => cases h
  | ok b => exact congrArg Except.ok (Option.some.inj h)

theorem exists_of_bind_eq_ok {γ : Type} {x : Except ε β} {next : β → Except ε γ} {c : γ}
    (h : x >>= next = .ok c) : ∃ b, x = .ok b ∧ next b = .ok c := by
  cases x with
  | error e => cases h
  | ok b => exact ⟨b, rfl, h⟩

theorem mapM_eq_ok_iff {l : List α} {r : List β} :
    l.mapM f = .ok r ↔ List.Forall₂ (fun a b => f a = .ok b) l r := by
  induction l generalizing r with
  | nil =>
    rw [List.mapM_nil, List.forall₂_nil_left_iff]
    exact ⟨fun h => (Except.ok.inj h).symm, fun h => h ▸ rfl⟩
  | cons a l ih =>
    rw [List.mapM_cons, List.forall₂_cons_left_iff]
    cases ha : f a with
    | error e =>
      constructor
      · intro h
        cases h
      · rintro ⟨b, r', hb, -⟩
        cases hb
    | ok b =>
      cases hl : l.mapM f with
      | error e =>
        constructor
        · intro h
          cases h
        · rintro ⟨b', r', -, hr', -⟩
          rw [← ih, hl] at hr'
          cases hr'
      | ok r' =>
        constructor
        · intro h
          exact ⟨b, r', rfl, ih.1 hl, (Except.ok.inj h).symm⟩
        · rintro ⟨b', r'', hb, hr'', rfl⟩
          rw [← ih, hl] at hr''
          rw [← Except.ok.inj hb, ← Except.ok.inj hr'']
          rfl

/-- Collecting what a function gives whatever the element. -/
theorem mapM_eq_ok_map {g : α → β} {l : List α} (h : ∀ a ∈ l, f a = .ok (g a)) :
    l.mapM f = .ok (l.map g) :=
  mapM_eq_ok_iff.2 (List.forall₂_map_right_iff.2 (List.forall₂_same.2 h))

/-- Collecting fails with the first fault, where a function tells the fault of each element. -/
theorem mapM_eq_of_findSome? (g : α → β) (fault : α → Option ε) {l : List α}
    (h : ∀ a ∈ l, f a = (fault a).elim (.ok (g a)) .error) :
    l.mapM f = (l.findSome? fault).elim (.ok (l.map g)) .error := by
  induction l with
  | nil => rfl
  | cons a l ih =>
    rw [List.mapM_cons, h a List.mem_cons_self, ih fun b hb => h b (List.mem_cons_of_mem a hb),
      List.findSome?_cons]
    cases fault a with
    | some e => rfl
    | none => cases l.findSome? fault <;> rfl

/-- Filtering what a function gives by tests that all succeed. -/
theorem filterM_map_eq_ok {test : β → Except ε Bool} {g : α → β} {p : α → Bool} {l : List α}
    (h : ∀ a ∈ l, test (g a) = .ok (p a)) : (l.map g).filterM test = .ok ((l.filter p).map g) := by
  have haux : ∀ done,
      List.filterAuxM test (l.map g) done = .ok (((l.filter p).map g).reverse ++ done) := by
    induction l with
    | nil => exact fun done => rfl
    | cons a l ih =>
      intro done
      rw [List.map_cons, List.filterAuxM, h a List.mem_cons_self]
      refine (ih (fun b hb => h b (List.mem_cons_of_mem a hb)) _).trans ?_
      cases hp : p a <;> simp [hp]
  rw [List.filterM, haux]
  simp [bind, Except.bind, pure, Except.pure]

theorem exists_mapM_eq_ok {l : List α} (h : ∀ a ∈ l, ∃ b, f a = .ok b) :
    ∃ r, l.mapM f = .ok r := by
  induction l with
  | nil => exact ⟨[], rfl⟩
  | cons a l ih =>
    obtain ⟨b, hb⟩ := h a List.mem_cons_self
    obtain ⟨r, hr⟩ := ih fun a ha => h a (List.mem_cons_of_mem _ ha)
    exact ⟨b :: r, mapM_eq_ok_iff.2 (.cons hb (mapM_eq_ok_iff.1 hr))⟩

/-- Runs over items that do the same are the same. -/
theorem mapM_eq_of_forall₂ {l k : List α} (h : List.Forall₂ (fun a b => f b = f a) l k) :
    k.mapM f = l.mapM f := by
  induction h with
  | nil => rfl
  | cons hab _ ih => rw [List.mapM_cons, List.mapM_cons, hab, ih]

/-- What the first element of a list that gives anything gives. -/
def First (gives : α → β → Prop) (l : List α) (b : β) : Prop :=
  ∃ front a back, l = front ++ a :: back ∧ gives a b ∧ ∀ c ∈ front, ∀ d, ¬gives c d

section First

variable {gives : α → β → Prop} {a : α} {b : β} {l : List α}

theorem not_first_nil : ¬First gives [] b := by
  rintro ⟨front, a, back, h, -⟩
  cases front <;> cases h

theorem first_cons_iff :
    First gives (a :: l) b ↔ gives a b ∨ (∀ d, ¬gives a d) ∧ First gives l b := by
  constructor
  · rintro ⟨front, c, back, h, hc, hfront⟩
    cases front with
    | nil =>
      obtain ⟨rfl, -⟩ := List.cons.inj h
      exact .inl hc
    | cons d front =>
      obtain ⟨rfl, rfl⟩ := List.cons.inj h
      exact .inr ⟨hfront a List.mem_cons_self, front, c, back, rfl, hc,
        fun c hc => hfront c (List.mem_cons_of_mem _ hc)⟩
  · rintro (h | ⟨ha, front, c, back, rfl, hc, hfront⟩)
    · exact ⟨[], a, l, rfl, h, by simp⟩
    · exact ⟨a :: front, c, back, rfl, hc, List.forall_mem_cons.2 ⟨ha, hfront⟩⟩

/-- An element that gives nothing may be left out. -/
theorem first_cons_of_not (h : ∀ d, ¬gives a d) : First gives (a :: l) b ↔ First gives l b := by
  rw [first_cons_iff]
  simp [h]

theorem exists_first_iff : (∃ b, First gives l b) ↔ ∃ a ∈ l, ∃ b, gives a b := by
  induction l with
  | nil => simp [not_first_nil]
  | cons a l ih =>
    simp only [first_cons_iff, exists_or, exists_and_left, ih, List.exists_mem_cons_iff]
    by_cases h : ∃ b, gives a b
    · simp [h]
    · simp [not_exists.1 h]

theorem first_append_iff {k : List α} : First gives (l ++ k) b ↔
    First gives l b ∨ (∀ d, ¬First gives l d) ∧ First gives k b := by
  induction l with
  | nil => simp [not_first_nil]
  | cons a l ih =>
    rw [List.cons_append, first_cons_iff, first_cons_iff, ih]
    simp only [first_cons_iff]
    by_cases h : ∃ d, gives a d
    · grind
    · simp [not_exists.1 h]

theorem first_singleton_iff : First gives [a] b ↔ gives a b := by
  simp [first_cons_iff, not_first_nil]

section Fault

variable {α γ δ ε : Type} {fails : α → ε → Prop} {l k : List α} {e : ε} {x : Except ε γ}
  {next : γ → Except ε δ}

/-- A run that goes on with later elements where the earlier ones have not failed fails with the first fault
of all. -/
theorem bind_eq_error_iff_first (hx : ∀ d, x = .error d ↔ First fails l d)
    (hnext : ∀ c, next c = .error e ↔ First fails k e) :
    x.bind next = .error e ↔ First fails (l ++ k) e := by
  rw [first_append_iff]
  simp only [← hx]
  cases x with
  | error d => simp [Except.bind]
  | ok c => simp [Except.bind, hnext c]

theorem bind_eq_error_iff_first_cons {a : α} (hx : ∀ d, x = .error d ↔ fails a d)
    (hnext : ∀ c, next c = .error e ↔ First fails k e) :
    x.bind next = .error e ↔ First fails (a :: k) e :=
  bind_eq_error_iff_first (l := [a]) (fun d => (hx d).trans first_singleton_iff.symm) hnext

end Fault

end First

/-- Items that are collected as themselves are each their own result. -/
theorem mapM_eq_ok_self_iff {f : α → Except ε α} {l : List α} :
    l.mapM f = .ok l ↔ ∀ a ∈ l, f a = .ok a := by
  rw [mapM_eq_ok_iff, List.forall₂_same]

/-- Where the things that items give are as many as the items, and alike in their order, each item
gives one that is like it. -/
theorem exists_of_map_filterMap_eq {give : α → Option α} {p : α → β} {l : List α}
    (h : (l.filterMap give).map p = l.map p) : ∀ a ∈ l, ∃ b, give a = some b ∧ p b = p a := by
  induction l with
  | nil => exact fun a ha => absurd ha List.not_mem_nil
  | cons a l ih =>
    rw [List.filterMap_cons] at h
    cases ha : give a with
    | none =>
      rw [ha] at h
      have hlength := congrArg List.length h
      have hle := List.length_filterMap_le give l
      simp only [List.length_map, List.length_cons] at hlength
      omega
    | some b =>
      rw [ha, List.map_cons, List.map_cons] at h
      obtain ⟨hfirst, hrest⟩ := List.cons.inj h
      exact List.forall_mem_cons.2 ⟨⟨b, ha, hfirst⟩, ih hrest⟩

/-- Lists that are alike under a map are alike under two others that together tell the same. -/
theorem map_eq_map_iff_of {α β γ δ : Type} {p : α → β} {q : α → γ} {r : α → δ} {l k : List α}
    (h : ∀ a ∈ l, ∀ b ∈ k, (p a = p b ↔ q a = q b ∧ r a = r b)) :
    l.map p = k.map p ↔ l.map q = k.map q ∧ l.map r = k.map r := by
  induction l generalizing k with
  | nil => cases k <;> simp
  | cons a l ih =>
    cases k with
    | nil => simp
    | cons b k =>
      have hfirst := h a List.mem_cons_self b List.mem_cons_self
      have hrest := ih fun c hc d hd =>
        h c (List.mem_cons_of_mem _ hc) d (List.mem_cons_of_mem _ hd)
      simp only [List.map_cons, List.cons.injEq, hfirst, hrest]
      constructor
      · rintro ⟨⟨hq, hr⟩, hqs, hrs⟩
        exact ⟨⟨hq, hqs⟩, hr, hrs⟩
      · rintro ⟨⟨hq, hqs⟩, hr, hrs⟩
        exact ⟨⟨hq, hr⟩, hqs, hrs⟩

end CatalogSync
