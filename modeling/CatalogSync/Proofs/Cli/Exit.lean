import CatalogSync.Cli.Run
import CatalogSync.Proofs.Registry.Basic
import CatalogSync.Proofs.Text.Loose

/-!
How a run ends. Where the command line, the settings and the registry were read, it ends as its command
does.
-/

namespace CatalogSync.Cli

theorem loadRegistry_of_load [Room] {s : Registry × Workspace} {t : Registry × Workspace}
    (h : Registry.load s = .ok () t) : loadRegistry s = .ok none t := by
  rw [loadRegistry]
  simp only [tryCatch, tryCatchThe, MonadExceptOf.tryCatch, bind, EStateM.bind, EStateM.tryCatch, h]
  rfl

/-- Settings that are missing or break the rules give an explanation. -/
theorem findSettings_apply [Room] (storage : Option LooseText) (config : Option (Option LooseText))
    (w : Workspace) : findSettings storage config w = match askedSettings storage config w with
      | .ok settings u => .ok (.inr settings) u
      | .error e u =>
        if e.isMissingFile ∨ e.isValueFault then
          .ok (.inl (.text "Failed to load configuration: " ++ e.message)) u
        else .error e u := by
  rw [findSettings.eq_def]
  simp only [tryCatch, tryCatchThe, MonadExceptOf.tryCatch, bind, EStateM.bind, EStateM.tryCatch]
  cases askedSettings storage config w with
  | ok settings u => rfl
  | error e u =>
    cases hmissing : e.isMissingFile <;> cases hvalue : e.isValueFault <;> simp [hmissing, hvalue] <;>
      rfl

theorem keepsFiles_load [Room] (path : LooseText) (storage : Option LooseText) :
    Act.KeepsFiles (Settings.load path storage) := by
  cases path with
  | broken codes halved =>
    refine Act.keepsFiles_get.bind fun w => ?_
    split <;> exact fun _ => rfl
  | text s =>
    have hexists : Act.KeepsFiles (Settings.fileExists (Path.ofString s)) := by
      intro w
      rw [Settings.fileExists]
      split <;> rfl
    refine hexists.bind fun found => ?_
    dsimp only
    split
    · exact fun _ => rfl
    split
    · refine (Act.keepsFiles_notes _).bind fun _ => Act.keepsFiles_get.bind fun w => ?_
      exact (Act.keepsFiles_ofExcept _).bind fun _ => (Act.keepsFiles_notes _).bind fun _ =>
        Act.keepsFiles_pure _
    · refine Act.keepsFiles_get.bind fun w => ?_
      exact (Act.keepsFiles_ofExcept _).bind fun _ => (Act.keepsFiles_notes _).bind fun _ =>
        Act.keepsFiles_pure _

/-- Looking for settings changes no file. -/
theorem keepsFiles_findSettings [Room] (storage : Option LooseText)
    (config : Option (Option LooseText)) : Act.KeepsFiles (findSettings storage config) := by
  have hasked : Act.KeepsFiles (askedSettings storage config) := by
    match config with
    | none => exact (Act.keepsFiles_notes _).bind fun _ => Act.keepsFiles_ofExcept _
    | some none => exact fun _ => rfl
    | some (some path) => exact keepsFiles_load path storage
  intro w
  have hleft := hasked w
  rw [findSettings_apply]
  cases hresult : askedSettings storage config w with
  | ok settings u =>
    rw [hresult] at hleft
    exact hleft
  | error e u =>
    rw [hresult] at hleft
    dsimp only
    split <;> exact hleft

/-- A command on the database of a name finds it, or is refused. -/
theorem withDatabase_apply (name : LooseText) (act : DatabaseEntry → Registry.Act Done)
    (r : Registry) (w : Workspace) : withDatabase name act (r, w) = match r.named? name with
      | some e => act e (r, w)
      | none => refuseName name (r, w) := by
  rw [withDatabase, bind_of_eq_ok (Registry.current_apply r w)]
  cases r.named? name <;> rfl

/-- A command ends with a code exactly if all that it prints can be encoded. -/
theorem Done.exit_eq_ok_iff [Room] {d : Done} {code : ExitCode} :
    d.exit = .ok code ↔ (∀ t ∈ d.printed, t.isBroken = false) ∧ d.code = code := by
  have hnone : d.printed.findSome? (·.halfFault?) = none ↔ ∀ t ∈ d.printed, t.isBroken = false := by
    simp only [List.findSome?_eq_none_iff, LooseText.halfFault?_eq_none_iff]
  rw [exit, ← hnone]
  cases d.printed.findSome? (·.halfFault?) <;> simp

/-- A command ends in a fault where it prints what cannot be encoded. -/
theorem Done.exists_exit_of_broken [Room] {d : Done} (h : ∃ t ∈ d.printed, t.isBroken = true) :
    ∃ fault, d.exit = .error (.unencodable fault) := by
  have hsome : (d.printed.findSome? (·.halfFault?)).isSome := by
    simpa only [List.findSome?_isSome_iff, LooseText.isSome_halfFault?] using h
  obtain ⟨fault, hfault⟩ := Option.isSome_iff_exists.1 hsome
  exact ⟨fault, by rw [exit, hfault]⟩

/-- How a command ends, by a code or by a fault. -/
def exitOf [Room] {σ : Type} : EStateM.Result Fault σ Done → Except Fault ExitCode
  | .ok done _ => done.exit
  | .error e _ => .error e

/-- What is noted before a command is performed. -/
def sessionNote (r : Registry) : Note :=
  ⟨.info, source, s!"Session: {r.path.toString} ({r.entries.length} databases)"⟩

/-- A run has read its command line, its settings and the registry, and goes on to its command with the
registry in a workspace. -/
def Reaches [Room] (surroundings : Surroundings) (args : List LooseText) (w : Workspace) (i : Invocation)
    (settings : Settings) (r : Registry) (u : Workspace) : Prop :=
  Invocation.parse args = .ok i ∧ ∃ configured loaded,
    findSettings surroundings.storage i.config { w with journal := [] } =
        .ok (.inr settings) configured ∧
      loadRegistry ({ path := settings.registryPath }, { configured with journal := [] }) =
        .ok none (r, loaded) ∧
      u = loaded.noting [sessionNote r]

variable {surroundings : Surroundings} {args : List LooseText} {w u u' : Workspace} {i : Invocation}
  {settings settings' : Settings} {r r' : Registry}

/-- A run reaches its command in one way. -/
theorem Reaches.unique [Room] (h : Reaches surroundings args w i settings r u)
    (h' : Reaches surroundings args w i settings' r' u') : settings = settings' ∧ r = r' ∧ u = u' := by
  obtain ⟨-, configured, loaded, hconfigured, hloaded, rfl⟩ := h
  obtain ⟨-, configured', loaded', hconfigured', hloaded', rfl⟩ := h'
  rw [hconfigured] at hconfigured'
  cases hconfigured'
  rw [hloaded] at hloaded'
  cases hloaded'
  exact ⟨rfl, rfl, rfl⟩

/-- What follows the loading of the registry ends as the command does. -/
theorem exitOf_work [Room] {databases : Survey.Source} {request : Request} {s : Registry × Workspace}
    {loaded : Workspace} (h : loadRegistry s = .ok none (r, loaded)) :
    exitOf (work settings databases request s) =
      exitOf (performGuarded settings databases request (r, loaded.noting [sessionNote r])) := by
  rw [work, bind_of_eq_ok h]
  dsimp only
  rw [bind_of_eq_ok (Registry.current_apply r loaded), bind_of_eq_ok (Registry.notes_apply _ r loaded), ← sessionNote]
  cases hresult : performGuarded settings databases request (r, loaded.noting [sessionNote r]) with
  | error e s => rw [bind_of_eq_error hresult]
  | ok done s =>
    rw [bind_of_eq_ok hresult]
    cases done.exit with
    | error fault => rfl
    | ok code => cases code <;> rfl

/-- A run that has found its settings ends as its work on the registry does. -/
theorem exit_run_of_settings [Room] (hparse : Invocation.parse args = .ok i)
    (hsettings : findSettings surroundings.storage i.config { w with journal := [] } =
      .ok (.inr settings) u) :
    (run surroundings args w).1.exit = exitOf (work settings surroundings.databases i.request
      ({ path := settings.registryPath }, { u with journal := [] })) := by
  rw [run, hparse]
  dsimp only
  rw [hsettings]
  dsimp only [runWith]
  cases work settings surroundings.databases i.request
      ({ path := settings.registryPath }, { u with journal := [] }) with
  | ok done s => rfl
  | error e s => rfl

/-- A run that reaches its command ends as the command does. -/
theorem Reaches.exit_run [Room] (h : Reaches surroundings args w i settings r u) :
    (run surroundings args w).1.exit =
      exitOf (performGuarded settings surroundings.databases i.request (r, u)) := by
  obtain ⟨hparse, configured, loaded, hconfigured, hloaded, rfl⟩ := h
  rw [exit_run_of_settings hparse hconfigured, exitOf_work hloaded]

end CatalogSync.Cli
