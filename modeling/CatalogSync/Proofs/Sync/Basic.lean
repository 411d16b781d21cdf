import CatalogSync.Proofs.Files.Writing
import CatalogSync.Proofs.Output.Binding
import CatalogSync.Sync.Basic

/-!
Synchronising a database, as a change of files. Once the database was read, the transfers of the report
and the files that are left are told by the files that were there. However it ends, only the places of
the database's files change, and directories are made on the way to them.
-/

namespace CatalogSync

/-- The path of a mapping. -/
def DiskMapping.target (m : DiskMapping) : Path := Path.ofString m.path

namespace Sync

variable {settings : Settings} {databases : Survey.Source} {tables : List Table}
  {files : List DiskMapping} {t : FileTree} {e : DatabaseEntry} {m : DiskMapping}
  {found : Introspection}

/-! ### Writing files -/

/-- What becomes of files when one file of a database is written, and the transfer. -/
def writtenFor [Room] (settings : Settings) (tables : List Table) (m : DiskMapping) (t : FileTree) :
    FileTree × Except Fault Transfer :=
  (bindingOf settings m).written tables t

theorem path_bindingOf (settings : Settings) (m : DiskMapping) :
    (bindingOf settings m).path = m.target := rfl

theorem writtenFor_fst [Room] (settings : Settings) (tables : List Table) (m : DiskMapping)
    (t : FileTree) : (writtenFor settings tables m t).1 =
      (t.write m.target (Content.render ((bindingOf settings m).contentOf tables))
        (bindingOf settings m).halves).1 := by
  simp only [writtenFor, Binding.written, path_bindingOf]

theorem writtenFor_snd [Room] (settings : Settings) (tables : List Table) (m : DiskMapping)
    (t : FileTree) : (writtenFor settings tables m t).2 = (bindingOf settings m).transferOf
      (t.write m.target (Content.render ((bindingOf settings m).contentOf tables))
        (bindingOf settings m).halves).2 := by
  simp only [writtenFor, Binding.written, path_bindingOf]

/-- Does something to a state for each of some values in turn; the first fault ends it. -/
def inTurn {α β ε σ : Type} (act : α → σ → σ × Except ε β) : List α → σ → σ × Except ε (List β)
  | [], s => (s, .ok [])
  | a :: rest, s =>
    match act a s with
    | (s, .error e) => (s, .error e)
    | (s, .ok b) => ((inTurn act rest s).1, (inTurn act rest s).2.map (b :: ·))

section
variable {α β ε σ : Type} {act : α → σ → σ × Except ε β} {a : α} {rest : List α} {s : σ}

theorem inTurn_nil (act : α → σ → σ × Except ε β) (s : σ) : inTurn act [] s = (s, .ok []) := rfl

theorem inTurn_of_error {e : ε} (h : (act a s).2 = .error e) :
    inTurn act (a :: rest) s = ((act a s).1, .error e) := by
  rw [inTurn]
  rcases hfirst : act a s with ⟨s', outcome⟩
  rw [hfirst] at h
  cases h
  rfl

theorem inTurn_of_ok {b : β} (h : (act a s).2 = .ok b) :
    inTurn act (a :: rest) s =
      ((inTurn act rest (act a s).1).1, (inTurn act rest (act a s).1).2.map (b :: ·)) := by
  rw [inTurn]
  rcases hfirst : act a s with ⟨s', outcome⟩
  rw [hfirst] at h
  cases h
  rfl

end

/-- How the writing of files ends, its times left out. -/
def transfersOf {α : Type} (writes : α → List Transfer) :
    EStateM.Result Fault Workspace α → Except Fault (List Transfer)
  | .ok a _ => .ok (writes a)
  | .error fault _ => .error fault

theorem transfersOf_eq_ok_iff {α : Type} {writes : α → List Transfer}
    {result : EStateM.Result Fault Workspace α} {transfers : List Transfer} :
    transfersOf writes result = .ok transfers ↔
      ∃ a u, result = .ok a u ∧ writes a = transfers := by
  cases result <;> simp [transfersOf]

/-- What comes of writing the files of a database is told by the files that were there. -/
theorem writeFiles_eq [Room] (settings : Settings) (tables : List Table) (files : List DiskMapping)
    (w : Workspace) :
    transfersOf (·.map fun x => x.2.1) (writeFiles settings tables files w) =
        (inTurn (writtenFor settings tables) files w.files).2 ∧
      (left (writeFiles settings tables files w)).files =
        (inTurn (writtenFor settings tables) files w.files).1 := by
  induction files generalizing w with
  | nil => exact ⟨rfl, rfl⟩
  | cons m rest ih =>
    obtain ⟨v, hv, happly⟩ : ∃ v, v.files = (writtenFor settings tables m w.files).1 ∧
        (bindingOf settings m).write tables w.readClock.2 =
          Act.ofExcept (writtenFor settings tables m w.files).2 v :=
      (bindingOf settings m).write_apply tables w.readClock.2
    obtain ⟨elapsed, u, hu, htimed⟩ := Act.exists_timed s!"write {m.format.word}"
      ((bindingOf settings m).write tables) w
    rw [happly, Act.keepsFiles_ofExcept, hv] at hu
    rw [happly] at htimed
    rw [writeFiles]
    cases hresult : (writtenFor settings tables m w.files).2 with
    | error fault =>
      rw [hresult] at htimed
      rw [bind_of_eq_error htimed, inTurn_of_error hresult]
      dsimp only [transfersOf, left]
      exact ⟨rfl, hu⟩
    | ok transfer =>
      rw [hresult] at htimed
      rw [bind_of_eq_ok htimed, inTurn_of_ok hresult, ← hu, ← (ih u).1, ← (ih u).2]
      dsimp only
      cases hrest : writeFiles settings tables rest u with
      | ok written x =>
        rw [bind_of_eq_ok hrest]
        exact ⟨rfl, rfl⟩
      | error fault x =>
        rw [bind_of_eq_error hrest]
        exact ⟨rfl, rfl⟩

/-! ### Reading the database -/

/-- The first step of synchronising a database: it is read, which takes some time. -/
def look [Room] (databases : Survey.Source) (name : String) (url : LooseText) :
    Act ((LooseText ⊕ Introspection) × Binary64) := do
  Act.note .info source s!"Syncing database '{name}'."
  Act.timed "introspect" (reach databases url)

/-- What follows once a database was read or could not be reached. -/
def finish [Room] (settings : Settings) (e : DatabaseEntry) :
    (LooseText ⊕ Introspection) × Binary64 → Act SyncReport
  | (.inl reason, elapsed) => do
    Act.note .error source (.text s!"Sync of '{e.name}' aborted: " ++ reason)
    return unreachable e.name reason elapsed
  | (.inr found, elapsed) => do
    let written ← writeFiles settings found.tables e.mappings
    if e.mappings.isEmpty then
      Act.note .warning source s!"Database '{e.name}' has no output files bound."
    let report := completed e.name found elapsed written
    let outcome := if report.success then "succeeded" else "failed"
    Act.note .info source s!"Sync of '{e.name}' {outcome}: {report.writes.length} file(s)."
    return report

theorem database_eq [Room] (settings : Settings) (databases : Survey.Source) (e : DatabaseEntry) :
    database settings databases e = look databases e.name e.url >>= finish settings e := by
  rw [database, look, bind_assoc]
  congr
  funext u
  congr
  funext ⟨found, elapsed⟩
  cases found <;> rfl

/-- A database that cannot be reached gives the reason; reading changes no file. -/
theorem reach_apply [Room] (databases : Survey.Source) (url : LooseText) (w : Workspace) :
    ∃ v, v.files = w.files ∧ reach databases url w = match (databases url).result with
      | .ok found => .ok (.inr found) v
      | .error (.connection url reason) => .ok (.inl (Fault.connection url reason).message) v
      | .error fault => .error fault v := by
  rw [reach]
  simp only [tryCatch, tryCatchThe, MonadExceptOf.tryCatch, bind, EStateM.bind, EStateM.tryCatch,
    Act.survey]
  cases (databases url).result with
  | ok found =>
    refine ⟨_, ?_, rfl⟩
    rfl
  | error fault =>
    cases fault
    all_goals
      refine ⟨_, ?_, rfl⟩
      rfl

/-- Looking at a database changes no file. -/
theorem look_apply [Room] (databases : Survey.Source) (name : String) (url : LooseText)
    (w : Workspace) : ∃ elapsed v, v.files = w.files ∧ look databases name url w = match (databases url).result with
      | .ok found => .ok (.inr found, elapsed) v
      | .error (.connection url reason) =>
        .ok (.inl (Fault.connection url reason).message, elapsed) v
      | .error fault => .error fault v := by
  rw [look, Act.note, bind_of_eq_ok (Act.notes_apply _ _)]
  generalize hnoted : w.noting _ = noted
  have hfiles : noted.files = w.files := by rw [← hnoted]; rfl
  obtain ⟨v, hv, hreach⟩ := reach_apply databases url noted.readClock.2
  obtain ⟨elapsed, u, hu, htimed⟩ := Act.exists_timed "introspect" (reach databases url) noted
  have hleft : (left (reach databases url noted.readClock.2)).files = w.files := by
    rw [hreach, ← hfiles]
    cases (databases url).result with
    | ok found => exact hv
    | error fault => cases fault <;> exact hv
  refine ⟨elapsed, u, hu.trans hleft, ?_⟩
  rw [htimed, hreach]
  cases (databases url).result with
  | ok found => rfl
  | error fault => cases fault <;> rfl

/-! ### Synchronising a database -/

/-- Synchronising a database that was read comes to writing its files. -/
theorem database_of_found [Room] (h : (databases e.url).result = .ok found) (settings : Settings)
    (w : Workspace) :
    transfersOf (·.writes) (database settings databases e w) =
        (inTurn (writtenFor settings found.tables) e.mappings w.files).2 ∧
      (left (database settings databases e w)).files =
        (inTurn (writtenFor settings found.tables) e.mappings w.files).1 := by
  obtain ⟨elapsed, v, hv, hlook⟩ := look_apply databases e.name e.url w
  rw [h] at hlook
  rw [database_eq, bind_of_eq_ok hlook, finish, ← hv, ← (writeFiles_eq _ _ _ v).1,
    ← (writeFiles_eq _ _ _ v).2]
  cases hwritten : writeFiles settings found.tables e.mappings v with
  | error fault u =>
    rw [bind_of_eq_error hwritten]
    exact ⟨rfl, rfl⟩
  | ok written u =>
    rw [bind_of_eq_ok hwritten]
    cases e.mappings.isEmpty <;> exact ⟨rfl, rfl⟩

/-- Where a database cannot be read no file changes; one that cannot be reached ends in a report. -/
theorem database_of_error [Room] {fault : Fault} (h : (databases e.url).result = .error fault)
    (settings : Settings) (w : Workspace) :
    ∃ elapsed u, u.files = w.files ∧ database settings databases e w = match fault with
      | .connection url reason =>
        .ok (unreachable e.name (Fault.connection url reason).message elapsed) u
      | fault => .error fault u := by
  obtain ⟨elapsed, v, hv, hlook⟩ := look_apply databases e.name e.url w
  rw [h] at hlook
  rw [database_eq]
  cases fault
  case connection url reason =>
    rw [bind_of_eq_ok hlook]
    refine ⟨elapsed, _, ?_, rfl⟩
    exact hv
  all_goals exact ⟨elapsed, v, hv, bind_of_eq_error hlook⟩

/-! ### What changes -/

theorem alters_writtenFor [Room] (ht : t.Sound) (hm : m.target.Inside) (settings : Settings)
    (tables : List Table) :
    FileTree.Alters [t.place m.target] t (writtenFor settings tables m t).1 := by
  rw [writtenFor_fst]
  exact FileTree.alters_write ht hm (Path.normal_ofString m.path) _ _

/-- Writing files changes their places and makes directories on the way to them. -/
theorem alters_inTurn [Room] (ht : t.Sound) (hinside : ∀ m ∈ files, m.target.Inside)
    (settings : Settings) (tables : List Table) :
    FileTree.Alters (files.map fun m => t.place m.target) t
      (inTurn (writtenFor settings tables) files t).1 := by
  induction files generalizing t with
  | nil => exact FileTree.Alters.refl ht
  | cons m rest ih =>
    rw [List.forall_mem_cons] at hinside
    have hfirst := alters_writtenFor ht hinside.1 settings tables
    have hmore : FileTree.Alters ((m :: rest).map fun m => t.place m.target) t
        (writtenFor settings tables m t).1 := hfirst.mono (by simp)
    cases hresult : (writtenFor settings tables m t).2 with
    | error fault =>
      rw [inTurn_of_error hresult]
      dsimp only
      exact hmore
    | ok transfer =>
      rw [inTurn_of_ok hresult]
      have hrest := ih hfirst.sound hinside.2
      simp only [hfirst.place_eq] at hrest
      exact hmore.trans (hrest.mono (List.subset_cons_self _ _))

/-- Synchronising a database changes the places of its files and makes directories on the way to them,
however it ends. -/
theorem alters_database [Room] {w : Workspace} (hw : w.files.Sound)
    (hinside : ∀ m ∈ e.mappings, m.target.Inside) (settings : Settings)
    (databases : Survey.Source) :
    FileTree.Alters (e.mappings.map fun m => w.files.place m.target) w.files
      (left (database settings databases e w)).files := by
  cases hresult : (databases e.url).result with
  | ok found =>
    rw [(database_of_found hresult settings w).2]
    exact alters_inTurn hw hinside settings found.tables
  | error fault =>
    obtain ⟨elapsed, u, hu, happly⟩ := database_of_error hresult settings w
    have hleft : (left (database settings databases e w)).files = w.files := by
      rw [happly]
      cases fault <;> exact hu
    rw [hleft]
    exact FileTree.Alters.refl hw

end Sync

end CatalogSync
