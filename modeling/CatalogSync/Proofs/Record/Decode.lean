import CatalogSync.Fault
import CatalogSync.Record.Decode

/-!
Checks that pass. What a record was read from, part by part, is told from its having been read.
-/

namespace CatalogSync

namespace Validated

variable {α β γ : Type}

theorem map_eq_valid_iff {f : α → β} {x : Validated α} {b : β} :
    x.map f = .valid b ↔ ∃ a, x = .valid a ∧ f a = b := by
  cases x <;> simp [map]

theorem seq_eq_valid_iff {f : Validated (α → β)} {x : Validated α} {b : β} :
    f <*> x = .valid b ↔ ∃ g a, f = .valid g ∧ x = .valid a ∧ g a = b := by
  have hseq : f <*> x = apply f x := rfl
  rw [hseq]
  cases f <;> cases x <;> simp [apply]

theorem functor_map_eq (f : α → β) (x : Validated α) : f <$> x = x.map f := by
  cases x <;> rfl

theorem under_eq_valid_iff {segment : Segment} {x : Validated α} {a : α} :
    x.under segment = .valid a ↔ x = .valid a := by
  cases x <;> simp [under]

theorem eq_valid_of_toExcept {name : RecordName} {x : Validated α} {a : α}
    (h : x.toExcept name = .ok a) : x = .valid a := by
  cases x with
  | valid b =>
    cases h
    rfl
  | invalid faults =>
    rw [toExcept, toExceptBy] at h
    split at h <;> cases h

theorem sequence_cons_eq_valid_iff {x : Validated α} {rest : List (Validated α)} {l : List α} :
    sequence (x :: rest) = .valid l ↔
      ∃ a as, x = .valid a ∧ sequence rest = .valid as ∧ a :: as = l := by
  rw [sequence.eq_def]
  dsimp only
  generalize sequence rest = others
  cases x <;> cases others <;> simp

end Validated

namespace Record

variable {α β : Type} {decoder : Decoder α}

theorem exists_of_required {members : List (LooseText × Json)} {name : String} {a : α}
    (h : required members name decoder = .valid a) :
    ∃ j, Json.lookup? members name = some j ∧ decoder j = .valid a := by
  rw [required] at h
  split at h
  next j hj => exact ⟨j, hj, Validated.under_eq_valid_iff.1 h⟩
  next => cases h

theorem exists_of_optional {members : List (LooseText × Json)} {name : String} {default a : α}
    (h : optional members name default decoder = .valid a) :
    a = default ∨ ∃ j, Json.lookup? members name = some j ∧ decoder j = .valid a := by
  rw [optional] at h
  split at h
  next j hj => exact .inr ⟨j, hj, Validated.under_eq_valid_iff.1 h⟩
  next => exact .inl (by cases h; rfl)

theorem ne_of_someText {j : Json} {s : String} (h : someText j = .valid s) : s ≠ "" := by
  rw [someText] at h
  cases htext : text j with
  | invalid faults => rw [htext] at h; cases h
  | valid t =>
    simp only [htext, Validated.andThen] at h
    split at h
    · cases h
    · cases h
      assumption

/-- A closed record is read from an object, by its fields. -/
theorem exists_of_closed {known : List String} {fields : List (LooseText × Json) → Validated α}
    {j : Json} {a : α} (h : closed known fields j = .valid a) :
    ∃ members, j = .obj members ∧ fields members = .valid a := by
  cases j with
  | obj members =>
    refine ⟨members, rfl, ?_⟩
    rw [closed, closeAgainst] at h
    split at h
    · exact h
    · split at h
      · cases h
      · rw [Validated.withFaults.eq_def] at h
        split at h
        · exact h
        · cases h
  | _ => cases h

/-- A list is read back if each of its items is. -/
theorem list_map {encode : α → Json} {l : List α} (h : ∀ a ∈ l, decoder (encode a) = .valid a) :
    list decoder (.arr (l.map encode)) = .valid l := by
  have hitems : ∀ first, Validated.sequence (items decoder first (l.map encode)) = .valid l := by
    induction l with
    | nil => exact fun _ => rfl
    | cons a l ih =>
      intro first
      have hl := ih (fun b hb => h b (List.mem_cons_of_mem _ hb)) (first + 1)
      refine Validated.sequence_cons_eq_valid_iff.2 ⟨a, l, ?_, hl, rfl⟩
      exact Validated.under_eq_valid_iff.2 (h a List.mem_cons_self)
  exact hitems 0

/-- Each item of a list is read from some value. -/
theorem exists_of_list {j : Json} {l : List α} (h : list decoder j = .valid l) :
    ∀ a ∈ l, ∃ k, decoder k = .valid a := by
  have hitems : ∀ (js : List Json) (first : Nat) (l : List α),
      Validated.sequence (items decoder first js) = .valid l → ∀ a ∈ l, ∃ k, decoder k = .valid a := by
    intro js
    induction js with
    | nil =>
      rintro first l h a ha
      cases h
      cases ha
    | cons j js ih =>
      intro first l h
      obtain ⟨b, bs, hj, hjs, rfl⟩ := Validated.sequence_cons_eq_valid_iff.1 h
      exact List.forall_mem_cons.2 ⟨⟨j, Validated.under_eq_valid_iff.1 hj⟩, ih _ _ hjs⟩
  cases j with
  | arr js => exact hitems js 0 l h
  | _ => cases h

theorem someItems_eq_valid_iff {l l' : List α} : someItems l = .valid l' ↔ l ≠ [] ∧ l' = l := by
  cases l with
  | nil => simp [someItems, Validated.fault]
  | cons a l => simp [someItems, eq_comm]

end Record

end CatalogSync
