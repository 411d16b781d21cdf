import CatalogSync.Proofs.Schema.Unchecked
import CatalogSync.Proofs.Workspace
import CatalogSync.Schema.Draft

/-!
Drafts of schemas. A draft represents a schema with its records checked or not; which of the two it does
can be told neither by its text nor by what its checks find. Adding a model keeps it so, and so does
giving up the checks of its records.
-/

namespace CatalogSync

/-- The draft is the schema, its records checked or not. -/
inductive Draft.Represents : Draft → Schema → Prop
  | checked (s : Schema) : Represents (.checked s) s
  | unchecked (s : Schema) : Represents (.unchecked s.unchecked) s

namespace Edit

variable {s : Schema} {e : Editing}

/-- A draft whose records are not checked any more is the schema that it was. -/
theorem loosened_of_represents (h : e.draft.Represents s) :
    ∃ e', loosened e = .ok s.unchecked e' ∧ e'.draft.Represents s := by
  obtain ⟨draft, journal⟩ := e
  cases h with
  | checked => exact ⟨_, rfl, .unchecked s⟩
  | unchecked => exact ⟨_, rfl, .unchecked s⟩

/-- A model is added at the end. -/
theorem addModel_of_represents (h : e.draft.Represents s) (m : Model) :
    ∃ e', addModel m e = .ok () e' ∧ e'.draft.Represents (s.addModel m) := by
  obtain ⟨draft, journal⟩ := e
  cases h with
  | checked => exact ⟨_, rfl, .checked _⟩
  | unchecked =>
    have hadded : { s.unchecked with models := s.unchecked.models ++ [m.unchecked] } =
        (s.addModel m).unchecked := by
      simp [Schema.unchecked, Schema.addModel]
    refine ⟨⟨.unchecked { s.unchecked with models := s.unchecked.models ++ [m.unchecked] }, journal⟩,
      rfl, ?_⟩
    rw [hadded]
    exact .unchecked _

section
variable [Room]

/-- The text of a draft is that of its schema, and so is what keeps the schema from having one. -/
theorem text_of_represents (h : e.draft.Represents s) : ∃ e', e'.draft = e.draft ∧
    text e = match s.text with
      | .ok text => .ok text e'
      | .error fault => .error fault e := by
  obtain ⟨draft, journal⟩ := e
  cases h with
  | checked =>
    refine ⟨⟨.checked s, journal ++ s.renderNotes⟩, rfl, ?_⟩
    rw [text, bind_of_eq_ok (get_apply _)]
    dsimp only
    cases s.text <;> rfl
  | unchecked =>
    refine ⟨⟨.unchecked s.unchecked, journal⟩, rfl, ?_⟩
    rw [text, bind_of_eq_ok (get_apply _)]
    dsimp only
    rw [Schema.text_unchecked]
    cases s.text <;> rfl

end

/-- The checks of a draft find what they find in its schema. -/
theorem findings_of_represents (h : e.draft.Represents s) (name : String) :
    ∃ e', e'.draft = e.draft ∧ findings name e = .ok (match Schema.checks.find? (·.1 = name) with
      | some check => (check.2 s).map (·.finding)
      | none => s.issues.map (·.finding)) e' := by
  obtain ⟨draft, journal⟩ := e
  rw [findings, bind_of_eq_ok (get_apply _)]
  cases h with
  | checked =>
    dsimp only
    cases Schema.checks.find? (·.1 = name) <;> exact ⟨_, rfl, rfl⟩
  | unchecked =>
    have hfind := Schema.find?_checks_unchecked s name
    dsimp only
    cases hcheck : Schema.checks.find? (·.1 = name) with
    | none =>
      rw [hcheck, Option.map_none, Option.map_eq_none_iff] at hfind
      rw [hfind]
      dsimp only
      rw [Schema.findings_unchecked]
      exact ⟨_, rfl, rfl⟩
    | some check =>
      rw [hcheck, Option.map_some, Option.map_eq_some_iff] at hfind
      obtain ⟨other, hother, hfound⟩ := hfind
      rw [hother]
      dsimp only
      rw [hfound]
      exact ⟨_, rfl, rfl⟩

end Edit

end CatalogSync
