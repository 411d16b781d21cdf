import CatalogSync.Cli.Perform
import CatalogSync.Proofs.Output.Reading
import CatalogSync.Proofs.Registry.Orderly
import CatalogSync.Proofs.Sync.View

/-!
Faults that end a command with a code. A command answers what the system refuses, and relation attributes
that cannot be read; all other faults leave it. What the steps of commands need so that none does is told
for each of them.
-/

namespace CatalogSync

/-- The fault ends a command with a code. -/
def Fault.isAnswered (e : Fault) : Bool := e.isRelationFault || e.isSystemFault

/-- A fault of a result, if any, ends a command with a code. -/
def Answered {σ α : Type} (x : EStateM.Result Fault σ α) : Prop :=
  ∀ e s, x = .error e s → e.isAnswered

section
variable {σ α β : Type} {x : EStateM Fault σ α} {f : α → EStateM Fault σ β} {s : σ} {e : Fault}

theorem answered_ok (a : α) (s : σ) : Answered (.ok a s) := nofun

theorem answered_error_iff : Answered (.error e s : EStateM.Result Fault σ α) ↔ e.isAnswered := by
  constructor
  · exact fun h => h e s rfl
  · rintro h _ _ ⟨⟩
    exact h

/-- Steps that follow and cannot fail do not count. -/
theorem answered_bind_iff (h : ∀ a t, x s = .ok a t → Answered (f a t)) :
    Answered ((x >>= f) s) ↔ Answered (x s) := by
  cases hx : x s with
  | error e t =>
    rw [bind_of_eq_error hx]
    exact answered_error_iff.trans answered_error_iff.symm
  | ok a t =>
    rw [bind_of_eq_ok hx]
    exact iff_of_true (h a t hx) (answered_ok a t)

/-- Where no fault has an answer, all must have gone well. -/
theorem answered_iff_exists_ok (h : ∀ e t, x s = .error e t → e.isAnswered = false) :
    Answered (x s) ↔ ∃ a t, x s = .ok a t := by
  cases hx : x s with
  | ok a t => exact iff_of_true (answered_ok a t) ⟨a, t, rfl⟩
  | error e t =>
    refine iff_of_false (fun hanswered => ?_) ?_
    · rw [answered_error_iff, h e t hx] at hanswered
      cases hanswered
    · rintro ⟨a, t, ⟨⟩⟩

end

/-- A text is written with an answer unless the writing fails of itself. -/
theorem Act.answered_writeText_iff [Room] {p : Path} {content : List Char} {halves : Option Text.HalfFault}
    {w : Workspace} : Answered (Act.writeText p content halves w) ↔ ¬w.files.Breaks p halves := by
  rw [← FileTree.broken_write_iff content halves, Act.writeText, Act.onFiles]
  rcases w.files.write p content halves with ⟨files, e | n⟩
  · dsimp only
    rw [answered_error_iff, FileFault.broken_error_iff, Bool.not_eq_false]
    exact Iff.rfl
  · exact iff_of_true (answered_ok _ _) (FileFault.not_broken_ok n)

/-! ### The registry -/

namespace Registry

variable {r : Registry} {w : Workspace} {e : DatabaseEntry} {name : String}

theorem answered_onWorkspace_iff {α : Type} {act : CatalogSync.Act α} :
    Answered (Act.onWorkspace act (r, w)) ↔ Answered (act w) := by
  rw [Act.onWorkspace]
  cases act w with
  | ok a u => exact iff_of_true (answered_ok _ _) (answered_ok _ _)
  | error e u => exact answered_error_iff.trans answered_error_iff.symm

theorem answered_save_iff [Room] : Answered (Registry.save (r, w)) ↔ ¬w.files.Breaks r.path r.halfFault? := by
  rw [Registry.save, bind_of_eq_ok (current_apply r w), answered_onWorkspace_iff,
    CatalogSync.Act.answered_writeText_iff]

/-- An entry is added with an answer unless it is accepted and its registry cannot be written. -/
theorem answered_add_iff [Room] : Answered (Registry.add e (r, w)) ↔
    (r.accepts e → ¬w.files.Breaks r.path (r.push e).halfFault?) := by
  rw [Registry.add, bind_of_eq_ok (current_apply r w), bind_of_eq_ok (notes_apply _ r w)]
  by_cases haccepts : r.accepts e
  · rw [if_pos haccepts, bind_of_eq_ok (put_apply r _ _), forall_prop_of_true haccepts]
    refine Iff.trans (answered_bind_iff ?_) answered_save_iff
    exact fun _ _ _ => answered_ok _ _
  · rw [if_neg haccepts]
    exact iff_of_true (answered_ok _ _) fun h => absurd h haccepts

/-- An entry is taken out with an answer unless it is there and its registry cannot be written. -/
theorem answered_remove_iff [Room] : Answered (Registry.remove name (r, w)) ↔
    ((r.find? name).isSome → ¬w.files.Breaks r.path (r.erase name).halfFault?) := by
  rw [Registry.remove, bind_of_eq_ok (current_apply r w)]
  by_cases hfound : (r.find? name).isSome
  · rw [if_pos hfound, bind_of_eq_ok (put_apply r _ w), forall_prop_of_true hfound]
    refine Iff.trans (answered_bind_iff ?_) answered_save_iff
    exact fun _ _ _ => answered_ok _ _
  · rw [if_neg hfound]
    exact iff_of_true (answered_ok _ _) fun h => absurd h hfound

end Registry

/-! ### Files and databases -/

namespace Content

variable {f : Format} {text : List Char} {fault : Fault}

/-- Of the faults of a text, only that a relation attribute cannot be read has an answer. -/
theorem isAnswered_iff_of_parse [Room] (h : Content.parse f text = .error fault) :
    fault.isAnswered ↔ f = .prisma ∧ fault.isRelationFault := by
  cases f with
  | prisma =>
    have hrelation := isRelationFault_of_parse h
    exact iff_of_true (by rw [Fault.isAnswered, hrelation, Bool.true_or]) ⟨rfl, hrelation⟩
  | json =>
    obtain ⟨_, -, ⟨_, -, rfl⟩ | ⟨_, -, rfl⟩⟩ := parse_json_error_iff.1 h
    · exact iff_of_false Bool.false_ne_true nofun
    · exact iff_of_false Bool.false_ne_true nofun

/-- No text of a file says that a database cannot be reached. -/
theorem isConnectionFault_of_parse [Room] (h : Content.parse f text = .error fault) :
    fault.isConnectionFault = false := by
  cases f with
  | prisma =>
    have hrelation := isRelationFault_of_parse h
    cases fault <;> first | rfl | cases hrelation
  | json =>
    obtain ⟨_, -, ⟨_, -, rfl⟩ | ⟨_, -, rfl⟩⟩ := parse_json_error_iff.1 h <;> rfl

end Content

namespace Sync

variable {settings : Settings} {source : Survey.Source} {e : DatabaseEntry} {w : Workspace}

theorem answered_database_iff [Room] (h : Answers source e) :
    Answered (database settings source e w) ↔ NoneBreaks settings source e w := by
  rw [answered_iff_exists_ok, exists_database_iff, and_iff_right h]
  intro fault u hrun
  obtain ⟨e, rfl, hsystem⟩ := isSystemFault_of_database h hrun
  exact hsystem

theorem answered_all_iff [Room] {r : Registry} (h : ∀ e, Answers source e) :
    Answered (all settings source r w) ↔ ∀ before e after, r.sorted = before ++ e :: after →
      NoneBreaks settings source e (left (databases settings source before w)) := by
  rw [answered_iff_exists_ok, exists_all_iff]
  · simp only [h, true_and]
  intro fault u hrun
  obtain ⟨e, v, -, hdatabase⟩ := exists_of_databases_error hrun
  obtain ⟨e', rfl, hsystem⟩ := isSystemFault_of_database (h e) hdatabase
  exact hsystem

/-- The file of a view is read with an answer exactly if it is legible, where the view is of the file. -/
theorem answered_withDisk_iff [Room] {f : Format} {b : Binding f} (hdisk : b.disk = none) (s : ViewSource) :
    Answered (withDisk s b w) ↔ (s.usesDisk → w.files.Legible b.path f) := by
  rw [withDisk]
  by_cases huses : s.usesDisk
  · rw [if_pos huses, forall_prop_of_true huses]
    cases hread : w.files.read b.path with
    | error fault =>
      obtain ⟨u, hload⟩ := Binding.loadDisk_of_error hdisk hread
      rw [FileTree.legible_of_read_error hread]
      by_cases hsystem : (Fault.file fault).isSystemFault
      · rw [if_pos hsystem] at hload
        rw [bind_of_eq_ok hload]
        exact iff_of_true (answered_error_iff.2 rfl) hsystem
      · rw [if_neg hsystem] at hload
        rw [bind_of_eq_error hload]
        exact answered_error_iff
    | ok text =>
      have hload := Binding.loadDisk_of_text hdisk hread
      rw [FileTree.legible_of_read hread, ← Content.parse_ends_iff]
      cases hparse : Content.parse f text with
      | error fault =>
        rw [hparse] at hload
        rw [bind_of_eq_error hload, answered_error_iff, Content.isAnswered_iff_of_parse hparse]
        simp
      | ok content =>
        rw [hparse] at hload
        rw [bind_of_eq_ok hload]
        exact iff_of_true (answered_ok _ _) (by simp)
  · rw [if_neg huses]
    exact iff_of_true (answered_ok _ _) fun h => absurd h huses

/-- The file of a view does not say that a database cannot be reached. -/
theorem isConnectionFault_of_withDisk [Room] {f : Format} {b : Binding f} (hdisk : b.disk = none)
    {s : ViewSource} {fault : Fault} {u : Workspace} (h : withDisk s b w = .error fault u) :
    fault.isConnectionFault = false := by
  rw [withDisk] at h
  split at h
  · cases hread : w.files.read b.path with
    | error refusal =>
      obtain ⟨v, hload⟩ := Binding.loadDisk_of_error hdisk hread
      split at hload
      · rw [bind_of_eq_ok hload] at h
        cases h
        rfl
      · rw [bind_of_eq_error hload] at h
        cases h
        rfl
    | ok text =>
      have hload := Binding.loadDisk_of_text hdisk hread
      cases hparse : Content.parse f text with
      | error e =>
        rw [hparse] at hload
        rw [bind_of_eq_error hload] at h
        cases h
        exact Content.isConnectionFault_of_parse hparse
      | ok content =>
        rw [hparse] at hload
        rw [bind_of_eq_ok hload] at h
        cases h
  · cases h

/-- A view is shown, or its fault has an answer or is that its database cannot be reached, exactly if the
file is legible, where the view is of the file. -/
theorem answered_view_iff [Room] {f : Format} {m : DiskMapping} (h : Answers source e)
    (hm : e.mapping? f = some m) (s : ViewSource) :
    (∀ fault u, view settings source e f s.word w = .error fault u →
        fault.isAnswered ∨ fault.isConnectionFault) ↔
      (s.usesDisk → w.files.Legible m.target m.format) := by
  have hdisk : (bindingOf settings m).disk = none := rfl
  rw [← path_bindingOf settings m, ← answered_withDisk_iff hdisk s, view_of_mapping hm]
  cases hresult : withDisk s (bindingOf settings m) w with
  | error fault u =>
    rw [bind_of_eq_error hresult, answered_error_iff]
    simp [isConnectionFault_of_withDisk hdisk hresult]
  | ok b u =>
    rw [bind_of_eq_ok hresult]
    refine iff_of_true (fun fault v hfault => .inr ?_) (answered_ok b u)
    rcases shown_cases h settings s b u with
      ⟨tables, v', -, hshown⟩ | ⟨-, url, reason, v', -, hshown⟩
    · rw [hshown] at hfault
      cases hfault
    · rw [hshown] at hfault
      cases hfault
      rfl

end Sync

end CatalogSync
