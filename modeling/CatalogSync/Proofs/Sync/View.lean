import CatalogSync.Proofs.Sync.Reports

/-!
A view in its two steps. The file is read, where the view is of the file; then the database is, where
the view is of the database, and what was kept is shown.
-/

namespace CatalogSync

namespace Sync

variable {settings : Settings} {source : Survey.Source} {e : DatabaseEntry} {f : Format} {s : ViewSource}
  {b : Binding f} {m : DiskMapping} {w : Workspace}

/-- The binding of a view once its file was read, where the view is of the file. -/
def withDisk [Room] (s : ViewSource) (b : Binding f) : Act (Binding f) :=
  if s.usesDisk then do
    let (transfer, loaded) ← b.loadDisk
    if !transfer.success then throw (.unreadable (transfer.error.getD Transfer.noReason))
    return loaded
  else return b

/-- What a view shows once the file of its binding was read. -/
def shown [Room] (settings : Settings) (source : Survey.Source) (e : DatabaseEntry) (s : ViewSource)
    (b : Binding f) : Act LooseText := do
  let mut binding := b
  if s.usesDatabase then
    let found ← Act.survey source e.url
    Act.notes (found.errors.map fun report => ⟨.warning, Sync.source, report.line⟩)
    Act.notes (Content.ofTablesNotes found.tables f)
    binding := binding.loadDatabase found.tables
  Act.notes binding.renderNotes
  return shownText settings binding

theorem view_of_mapping [Room] (hm : e.mapping? f = some m) (s : ViewSource) :
    view settings source e f s.word =
      withDisk s (bindingOf settings m) >>= shown settings source e s := by
  have hparse : ViewSource.parse s.word = .ok s := by cases s <;> decide
  have hstart : ∀ k : ViewSource → Act LooseText, (Act.ofExcept (.ok s) >>= k) = k s := fun _ => rfl
  rw [view, hparse, hstart]
  simp only [hm]
  by_cases huses : s.usesDisk
  · rw [withDisk, if_pos huses, if_pos huses, bind_assoc]
    refine bind_congr fun ⟨transfer, loaded⟩ => ?_
    dsimp only
    cases transfer.success <;> rfl
  · rw [withDisk, if_neg huses, if_neg huses, pure_bind]
    rfl

/-- What a view keeps of a database that was read. -/
def withDatabase [Room] (s : ViewSource) (b : Binding f) (tables : List Table) : Binding f :=
  if s.usesDatabase then b.loadDatabase tables else b

/-- Once its file was read, a view is shown, or its database cannot be reached. -/
theorem shown_cases [Room] (h : Answers source e) (settings : Settings) (s : ViewSource)
    (b : Binding f) (w : Workspace) :
    (∃ tables u, (s.usesDatabase → ∃ found, (source e.url).result = .ok found) ∧
        shown settings source e s b w = .ok (shownText settings (withDatabase s b tables)) u) ∨
      s.usesDatabase ∧ ∃ url reason u, (source e.url).result = .error (.connection url reason) ∧
        shown settings source e s b w = .error (.connection url reason) u := by
  rw [shown]
  by_cases huses : s.usesDatabase
  · rw [if_pos huses]
    rcases h with ⟨found, hfound⟩ | ⟨url, reason, hfault⟩
    · obtain ⟨u, hsurvey⟩ : ∃ u, Act.survey source e.url w = .ok found u := by
        simp only [Act.survey, hfound, EStateM.Result.ok.injEq, true_and, exists_eq']
      rw [bind_of_eq_ok hsurvey]
      have hkept : withDatabase s b found.tables = b.loadDatabase found.tables := if_pos huses
      exact .inl ⟨found.tables, _, fun _ => ⟨found, hfound⟩, by rw [hkept]; rfl⟩
    · obtain ⟨u, hsurvey⟩ : ∃ u, Act.survey source e.url w =
          .error (.connection url reason) u := by
        simp only [Act.survey, hfault, EStateM.Result.error.injEq, true_and, exists_eq']
      exact .inr ⟨huses, url, reason, u, hfault, bind_of_eq_error hsurvey⟩
  · rw [if_neg huses]
    have hkept : withDatabase s b [] = b := if_neg huses
    exact .inl ⟨[], _, fun h => absurd h huses, by rw [hkept]; rfl⟩

end Sync

end CatalogSync
