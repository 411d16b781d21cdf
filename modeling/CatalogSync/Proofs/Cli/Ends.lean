import CatalogSync.Proofs.Cli.Coded
import CatalogSync.Proofs.Cli.History
import CatalogSync.Proofs.Settings.Explained

/-!
Runs that end with an exit code. A run that does not ends in a fault that nothing answers: of the
settings, of the file of the registry, or of the command that was asked for, of which what it prints may
be the cause.
-/

namespace CatalogSync.Cli

/-! ### The command line -/

theorem exists_exit_of_settle {σ α : Type} {g : Grammar σ} {x : Except Stop α} {finished : Finished}
    (h : settle g x = .error finished) : ∃ code, finished.exit = .ok code := by
  cases x with
  | ok a => cases h
  | error stop =>
    cases h
    cases stop <;> exact ⟨_, rfl⟩

/-- A command line that cannot be read ends a run with a code. -/
theorem exists_exit_of_parse {args : List LooseText} {finished : Finished}
    (h : Invocation.parse args = .error finished) : ∃ code, finished.exit = .ok code := by
  rw [Invocation.parse] at h
  simp only [bind, Except.bind] at h
  split at h
  next hopening =>
    cases h
    exact exists_exit_of_settle hopening
  next opening _ =>
    split at h
    · exact exists_exit_of_settle h
    · split at h
      next hoperands =>
        cases h
        exact exists_exit_of_settle hoperands
      next operands _ =>
        split at h
        · cases h
        · exact exists_exit_of_settle h

/-- Settings of the environment that break the rules have an explanation. -/
theorem isExplained_of_ofEnvironment {storage : Option LooseText} {e : Fault}
    (h : Settings.ofEnvironment storage = .error e) : e.isExplained := by
  rw [Settings.ofEnvironment.eq_def] at h
  split at h
  · split at h
    · cases h
    · rw [Validated.toExcept, Validated.toExceptBy.eq_def] at h
      split at h
      · cases h
      · split at h <;> cases h <;> rfl
  · cases h

section
variable {surroundings : Surroundings} {settings : Settings} {databases : Survey.Source}
  {r : Registry} {w u : Workspace} {s : Registry × Workspace} [Room]

/-! ### The settings and the registry -/

/-- The settings that a command line asks for can be had, or what is wrong with them has an explanation:
a path was given, the system does not find it too long, and what is wrong with the text of its file, if
anything, has an explanation. -/
def Configured (t : FileTree) : Option (Option LooseText) → Prop
  | none => True
  | some none => False
  | some (some (.text path)) =>
    (∀ e, t.probe (Path.ofString path) ≠ .error e) ∧
      ∀ text, t.read (Path.ofString path) = .ok text →
        Settings.Explained text
          (Settings.grammarOf (Text.lower (Path.ofString path).extension.toList))
  | some (some (.broken codes halved)) => Settings.isTooLong t (.broken codes halved) = false

/-- Settings are found, or there is an explanation, exactly if the fault of reading them has one. -/
theorem exists_findSettings_iff_explained (storage : Option LooseText)
    (config : Option (Option LooseText)) : (∃ found u, findSettings storage config w = .ok found u) ↔
      ∀ e u, askedSettings storage config w = .error e u → e.isExplained := by
  rw [findSettings_apply]
  cases askedSettings storage config w with
  | ok settings u => exact iff_of_true ⟨_, _, rfl⟩ (by rintro _ _ ⟨⟩)
  | error e u =>
    simp only [Fault.isExplained, Bool.or_eq_true]
    by_cases hexplained : e.isMissingFile ∨ e.isValueFault
    · rw [if_pos hexplained]
      refine iff_of_true ⟨_, _, rfl⟩ ?_
      rintro _ _ ⟨⟩
      exact hexplained
    · rw [if_neg hexplained]
      refine iff_of_false ?_ fun h => hexplained (h e u rfl)
      rintro ⟨found, v, ⟨⟩⟩

/-- What is wrong with the settings of the environment has an explanation. -/
theorem isExplained_of_askedSettings_none {storage : Option LooseText} {e : Fault}
    (h : askedSettings storage none w = .error e u) : e.isExplained := by
  rw [askedSettings, bind_of_eq_ok (Act.notes_apply _ _)] at h
  cases hsettings : Settings.ofEnvironment storage with
  | ok settings =>
    rw [hsettings] at h
    cases h
  | error fault =>
    rw [hsettings] at h
    cases h
    exact isExplained_of_ofEnvironment hsettings

/-- A path that no file can have is explained unless it is too long. -/
theorem explains_broken_iff (storage : Option LooseText) (codes : List Nat)
    (halved : codes.any isHalf) :
    (∀ e u, askedSettings storage (some (some (.broken codes halved))) w = .error e u →
      e.isExplained) ↔ Settings.isTooLong w.files (.broken codes halved) = false := by
  have hload : askedSettings storage (some (some (.broken codes halved))) w =
      .error (if Settings.isTooLong w.files (.broken codes halved) then
        .settingsTooLong (Settings.pathText (.broken codes halved))
      else .settingsMissing (Settings.pathText (.broken codes halved))) w := by
    rw [askedSettings, Settings.load, bind_of_eq_ok (get_apply w)]
    split <;> rfl
  rw [hload]
  cases Settings.isTooLong w.files (.broken codes halved) with
  | true => exact iff_of_false (fun h => Bool.false_ne_true (h _ _ rfl)) Bool.noConfusion
  | false => exact iff_of_true (by rintro _ _ ⟨⟩; rfl) rfl

/-- What is wrong with a file of settings, if anything, is explained exactly if the system does not find
its path too long and what is wrong with its text has an explanation. -/
theorem explains_path_iff (storage : Option LooseText) (path : String) :
    (∀ e u, askedSettings storage (some (some (.text path))) w = .error e u → e.isExplained) ↔
      Configured w.files (some (some (.text path))) := by
  obtain ⟨u, hload⟩ := Settings.loadFrom_apply (Path.ofString path) storage w
  rw [askedSettings, Settings.load, Configured]
  rcases hprobe : w.files.probe (Path.ofString path) with fault | _ | _ | bytes
  case error =>
    rw [hprobe] at hload
    cases FileTree.eq_of_probe_error hprobe
    rw [hload]
    exact iff_of_false (fun h => Bool.false_ne_true (h _ _ rfl)) fun h => h.1 _ rfl
  case ok.some.file =>
    have hprobed : ∀ e, w.files.probe (Path.ofString path) ≠ .error e := by
      rw [hprobe]
      rintro _ ⟨⟩
    rw [hprobe] at hload
    rw [← hprobe, and_iff_right hprobed, ← Settings.explains_ofFile_iff storage hprobe, hload]
    dsimp only
    cases Settings.ofFile storage (Path.ofString path) w.files with
    | ok settings => exact iff_of_true (by rintro _ _ ⟨⟩) (Settings.explains_ok settings)
    | error e =>
      rw [Settings.explains_error_iff]
      exact ⟨fun h => h e u rfl, by rintro h _ _ ⟨⟩; exact h⟩
  all_goals
    simp only [hprobe] at hload
    rw [hload]
    refine iff_of_true (by rintro _ _ ⟨⟩; rfl) ⟨by rintro _ ⟨⟩, fun text hread => ?_⟩
    have hfile := FileTree.probe_of_read hread
    rw [hprobe] at hfile
    simp at hfile

theorem exists_findSettings_iff (storage : Option LooseText) (config : Option (Option LooseText)) :
    (∃ found u, findSettings storage config w = .ok found u) ↔ Configured w.files config := by
  rw [exists_findSettings_iff_explained]
  rcases config with _ | _ | path | ⟨codes, halved⟩
  · exact iff_of_true (fun _ _ => isExplained_of_askedSettings_none) trivial
  · exact iff_of_false (fun h => Bool.false_ne_true (h _ _ rfl)) id
  · exact explains_path_iff storage path
  · exact explains_broken_iff storage codes halved

theorem loadRegistry_of_error {t : Registry × Workspace} {e : Fault}
    (h : Registry.load s = .error e t) : loadRegistry s =
      if e.isSystemFault ∨ e.isValueFault then
        .ok (some (.text "Failed to load session registry: " ++ e.message)) t
      else .error e t := by
  rw [loadRegistry]
  simp only [tryCatch, tryCatchThe, MonadExceptOf.tryCatch, bind, EStateM.bind, EStateM.tryCatch, h]
  by_cases hexplained : e.isSystemFault ∨ e.isValueFault
  · simp only [if_pos hexplained]
    rfl
  · simp only [if_neg hexplained]
    rfl

/-- The registry is loaded, or there is an explanation, unless the values of its file stand too deep in
one another. -/
theorem exists_loadRegistry_iff : (∃ found t, loadRegistry (r, w) = .ok found t) ↔
    ∀ text, w.files.read r.path = .ok text →
      ∀ innermost, Json.read text ≠ .error (.tooDeep innermost) := by
  rw [← Registry.explains_load_iff]
  cases hload : Registry.load (r, w) with
  | ok _ t =>
    refine iff_of_true ⟨_, _, loadRegistry_of_load hload⟩ ?_
    rintro _ _ ⟨⟩
  | error e t =>
    rw [loadRegistry_of_error hload]
    by_cases hexplained : e.isSystemFault ∨ e.isValueFault
    · rw [if_pos hexplained]
      refine iff_of_true ⟨_, _, rfl⟩ ?_
      rintro _ _ ⟨⟩
      exact hexplained
    · rw [if_neg hexplained]
      refine iff_of_false ?_ fun h => hexplained (h e t rfl)
      rintro ⟨found, t', ⟨⟩⟩

/-! ### Runs -/

/-- A command that is refused ends with its code. -/
theorem exists_exitOf_refuse (code : ExitCode) (text : LooseText) (s : Registry × Workspace) :
    ∃ c, exitOf (refuse code text s) = .ok c := by
  have hexit : ({ code := code } : Done).exit = .ok code :=
    Done.exit_eq_ok_iff.2 ⟨List.forall_mem_nil _, rfl⟩
  exact ⟨code, hexit⟩

/-- A command ends a run with a code exactly if all that it prints can be encoded, or its fault has an
answer. -/
theorem exists_exitOf_performGuarded_iff {request : Request} :
    (∃ code, exitOf (performGuarded settings databases request s) = .ok code) ↔
      Coded (perform settings databases request s) := by
  rw [performGuarded]
  cases hperform : perform settings databases request s with
  | ok done t =>
    rw [tryCatch_of_eq_ok hperform]
    simp [exitOf, Coded, Done.exit_eq_ok_iff]
  | error e t =>
    rw [tryCatch_of_eq_error hperform, coded_error_iff, Fault.isAnswered, Bool.or_eq_true]
    by_cases hrelation : e.isRelationFault
    · rw [if_pos hrelation]
      exact iff_of_true (exists_exitOf_refuse _ _ _) (.inl hrelation)
    by_cases hsystem : e.isSystemFault
    · rw [if_neg hrelation, if_pos hsystem]
      exact iff_of_true (exists_exitOf_refuse _ _ _) (.inr hsystem)
    · rw [if_neg hrelation, if_neg hsystem]
      refine iff_of_false ?_ (not_or.2 ⟨hrelation, hsystem⟩)
      rintro ⟨code, ⟨⟩⟩

/-- What a run needs to end with an exit code once its command line was read: of the settings, of the
file of the registry that they name, and of the command in the workspace that it is performed in. -/
structure Ends (surroundings : Surroundings) (args : List LooseText) (w : Workspace) (i : Invocation) :
    Prop where
  configured : Configured w.files i.config
  loads : ∀ settings u,
    findSettings surroundings.storage i.config { w with journal := [] } = .ok (.inr settings) u →
      ∀ text, w.files.read settings.registryPath = .ok text →
        ∀ innermost, Json.read text ≠ .error (.tooDeep innermost)
  performs : ∀ settings r u, Reaches surroundings args w i settings r u →
    i.request.Ends settings surroundings.databases r u

/-- A run that reaches its command ends with a code exactly if the command has what it needs. -/
theorem Reaches.ends_iff {args : List LooseText} {i : Invocation}
    (h : Reaches surroundings args w i settings r u)
    (hdatabases : ∀ e, Sync.Answers surroundings.databases e) :
    (∃ code, (run surroundings args w).1.exit = .ok code) ↔
      i.request.Ends settings surroundings.databases r u := by
  rw [h.exit_run, exists_exitOf_performGuarded_iff, coded_perform_iff hdatabases]

/-- A run that has found its settings ends with a code exactly if the values of the registry's file are
not too deep in one another, and the command, where it is reached, has what it needs. -/
theorem exists_exit_of_settings_iff {args : List LooseText} {i : Invocation}
    (hparse : Invocation.parse args = .ok i)
    (hfind : findSettings surroundings.storage i.config { w with journal := [] } =
      .ok (.inr settings) u)
    (hdatabases : ∀ e, Sync.Answers surroundings.databases e) :
    (∃ code, (run surroundings args w).1.exit = .ok code) ↔
      (∀ text, w.files.read settings.registryPath = .ok text →
        ∀ innermost, Json.read text ≠ .error (.tooDeep innermost)) ∧
      ∀ r v, Reaches surroundings args w i settings r v →
        i.request.Ends settings surroundings.databases r v := by
  have hfiles : ({ u with journal := [] } : Workspace).files = w.files := by
    have hkept := keepsFiles_findSettings surroundings.storage i.config { w with journal := [] }
    rw [hfind] at hkept
    exact hkept
  have hloads : (∃ found t, loadRegistry
        ({ path := settings.registryPath }, { u with journal := [] }) = .ok found t) ↔
      ∀ text, w.files.read settings.registryPath = .ok text →
        ∀ innermost, Json.read text ≠ .error (.tooDeep innermost) :=
    exists_loadRegistry_iff.trans (by rw [hfiles])
  rw [← hloads]
  cases hload : loadRegistry ({ path := settings.registryPath }, { u with journal := [] }) with
  | error e t =>
    rw [exit_run_of_settings hparse hfind, work, bind_of_eq_error hload]
    refine iff_of_false ?_ fun h => ?_
    · rintro ⟨code, ⟨⟩⟩
    · obtain ⟨⟨found, t', ⟨⟩⟩, -⟩ := h
  | ok found t =>
    obtain ⟨r, loaded⟩ := t
    rw [and_iff_right ⟨found, _, rfl⟩]
    cases found with
    | some explanation =>
      rw [exit_run_of_settings hparse hfind, work, bind_of_eq_ok hload]
      refine iff_of_true (exists_exitOf_refuse _ _ _) ?_
      rintro r' v ⟨-, configured, loaded', hfound, hloaded, -⟩
      rw [hfind] at hfound
      cases hfound
      rw [hload] at hloaded
      cases hloaded
    | none =>
      have hreaches : Reaches surroundings args w i settings r (loaded.noting [sessionNote r]) :=
        ⟨hparse, u, loaded, hfind, hload, rfl⟩
      rw [hreaches.ends_iff hdatabases]
      refine ⟨fun h r' v hreached => ?_, fun h => h _ _ hreaches⟩
      obtain ⟨-, rfl, rfl⟩ := hreaches.unique hreached
      exact h

/-- A run whose command line was read ends with a code exactly if it has what it needs. -/
theorem exists_exit_run_iff {args : List LooseText} {i : Invocation}
    (hparse : Invocation.parse args = .ok i)
    (hdatabases : ∀ e, Sync.Answers surroundings.databases e) :
    (∃ code, (run surroundings args w).1.exit = .ok code) ↔ Ends surroundings args w i := by
  have hconfigured := exists_findSettings_iff (w := { w with journal := [] }) surroundings.storage
    i.config
  cases hfind : findSettings surroundings.storage i.config { w with journal := [] } with
  | error e v =>
    rw [hfind] at hconfigured
    refine iff_of_false ?_ fun h => ?_
    · rw [run, hparse]
      dsimp only
      rw [hfind]
      rintro ⟨code, ⟨⟩⟩
    · obtain ⟨found, v', ⟨⟩⟩ := hconfigured.2 h.configured
  | ok found v =>
    have hsettled := hconfigured.1 ⟨found, v, hfind⟩
    cases found with
    | inl explanation =>
      refine iff_of_true ⟨.badInput, ?_⟩ ⟨hsettled, ?_, ?_⟩
      · rw [run, hparse]
        dsimp only
        rw [hfind]
      · intro settings u hfound
        rw [hfind] at hfound
        cases hfound
      · rintro settings r u ⟨-, configured, loaded, hfound, -⟩
        rw [hfind] at hfound
        cases hfound
    | inr settings =>
      rw [exists_exit_of_settings_iff hparse hfind hdatabases]
      constructor
      · rintro ⟨hloads, hperforms⟩
        refine ⟨hsettled, fun settings' u hfound => ?_, fun settings' r u hreached => ?_⟩
        · rw [hfind] at hfound
          cases hfound
          exact hloads
        · obtain ⟨-, configured, loaded, hfound, -⟩ := id hreached
          rw [hfind] at hfound
          cases hfound
          exact hperforms r u hreached
      · intro h
        exact ⟨h.loads settings v hfind, fun r u => h.performs settings r u⟩

/-- Where each database is read or cannot be reached, a run ends with one of the exit codes of the
program exactly if its command line cannot be read, or is followed by what the settings, the registry and
the command need. -/
theorem exit_run_iff (surroundings : Surroundings) (args : List LooseText) (w : Workspace)
    (hdatabases : ∀ e, Sync.Answers surroundings.databases e) :
    (∃ code, (run surroundings args w).1.exit = .ok code ∧ code.number ∈ [0, 1, 2, 4]) ↔
      ∀ i, Invocation.parse args = .ok i → Ends surroundings args w i := by
  have hnumber : ∀ code : ExitCode, code.number ∈ [0, 1, 2, 4] := by
    intro code
    cases code <;> decide
  simp only [hnumber, and_true]
  cases hparse : Invocation.parse args with
  | error finished =>
    rw [run, hparse]
    refine iff_of_true (exists_exit_of_parse hparse) ?_
    rintro _ ⟨⟩
  | ok i =>
    simp only [Except.ok.injEq, forall_eq']
    exact exists_exit_run_iff hparse hdatabases

end

section
open scoped Room

theorem answers_desk (e : DatabaseEntry) : Sync.Answers desk.databases e := .inr ⟨_, _, rfl⟩

theorem exit_run_sync : (∀ e, Sync.Answers desk.databases e) ∧
    Invocation.parse ["sync"] = .ok { request := .sync none } ∧
    Ends desk ["sync"] shopBound { request := .sync none } := by
  have hparse : Invocation.parse ["sync"] = .ok { request := .sync none } :=
    eq_ok_of_mem_toOption (by decide +kernel)
  have hexit : (run desk ["sync"] shopBound).1.exit = .ok .workFailed :=
    eq_ok_of_mem_toOption (by decide +kernel)
  have hends := (exit_run_iff desk ["sync"] shopBound answers_desk).1 ⟨_, hexit, by decide⟩
  exact ⟨answers_desk, hparse, hends _ hparse⟩

/-- Registering a database under an empty name ends with no exit code. -/
theorem exit_run_unnamed_ne : (∀ e, Sync.Answers desk.databases e) ∧
    ¬∃ code, (run desk ["add", "", "mysql://host/shop"] .bare).1.exit = .ok code ∧
      code.number ∈ [0, 1, 2, 4] := by
  refine ⟨answers_desk, ?_⟩
  have hexit : (run desk ["add", "", "mysql://host/shop"] .bare).1.exit.toOption = none := by
    decide +kernel
  rintro ⟨code, hcode, -⟩
  rw [hcode] at hexit
  cases hexit

end

end CatalogSync.Cli
