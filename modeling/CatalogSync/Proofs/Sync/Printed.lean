import CatalogSync.Proofs.Json.Written
import CatalogSync.Proofs.Output.Reading
import CatalogSync.Proofs.Sync.View

/-!
What synchronising and viewing give to be printed. A report holds half of a surrogate pair exactly where
the address or the reason does for which a database cannot be reached; a view does where a text of the
file does that it shows, or a provider in the header that it shows of a database.
-/

namespace CatalogSync

open LooseText (Marked)

/-! ### Reports -/

namespace ReportSheet

theorem isBroken_stepLine (success : Bool) (name elapsed : String) (detail : LooseText) :
    (stepLine success name elapsed detail).isBroken = detail.isBroken := by
  simp [stepLine]

theorem any_isBroken_part (title : String) (lines : List LooseText) :
    (part title lines).any (·.isBroken) = lines.any (·.isBroken) := by
  rw [part]
  split
  next hnone => rw [hnone]
  · simp

/-- Of all that a report says, halves can stand in its steps and in what is said of the connection. -/
theorem isBroken_text (s : ReportSheet) :
    s.text.isBroken = (s.steps.any (·.isBroken) || s.connection.any (·.isBroken)) := by
  have hplain (line : String → String) (items : List String) :
      (items.map fun e => LooseText.text (line e)).any (·.isBroken) = false := by
    simp [List.any_eq_false]
  have hsteps : (if s.steps = [] then [] else .text "  Steps:" :: s.steps).any (·.isBroken) =
      s.steps.any (·.isBroken) := by
    split
    next hnone => rw [hnone]
    · simp
  have hconnection : (s.connection.toList.map fun e => LooseText.text "    ✗ " ++ e).any (·.isBroken) =
      s.connection.any (·.isBroken) := by
    cases s.connection <;> simp
  rw [text, LooseText.isBroken_joined, lines]
  simp only [List.any_append, any_isBroken_part, hsteps, hconnection, hplain]
  simp

end ReportSheet

namespace Sync

variable {settings : Settings} {source : Survey.Source} {e : DatabaseEntry} {f : Format} {s : ViewSource}
  {b : Binding f} {m : DiskMapping} {w u : Workspace} {report : SyncReport}

/-- Where a database cannot be reached, neither the address nor the reason that is given has halves of
pairs. -/
def WholeReason (source : Survey.Source) (e : DatabaseEntry) : Prop :=
  ∀ url reason, (source e.url).result = .error (.connection url reason) →
    url.isBroken = false ∧ reason.isBroken = false

/-- The report on a database can be printed unless the reason for which it cannot be reached has halves of
pairs. -/
theorem whole_summary_iff [Room] (hrun : database settings source e w = .ok report u) :
    report.summary.isBroken = false ↔ WholeReason source e := by
  rw [SyncReport.summary, ReportSheet.isBroken_text]
  cases hresult : (source e.url).result with
  | ok found =>
    obtain ⟨elapsed, written, rfl⟩ := eq_completed_of_found hresult hrun
    refine iff_of_true ?_ fun url reason hfault => by rw [hresult] at hfault; cases hfault
    simp [SyncReport.sheet, completed, StepMetric.line, ReportSheet.isBroken_stepLine, writeStep,
      Function.comp_def]
  | error fault =>
    obtain ⟨elapsed, v, -, happly⟩ := database_of_error hresult settings w
    rw [happly] at hrun
    cases fault <;> cases hrun
    case refl url reason =>
      have hmessage : (Fault.connection url reason).message.isBroken =
          (url.isBroken || reason.isBroken) := by
        simp [Fault.message]
      have hwhole : WholeReason source e ↔ (url.isBroken || reason.isBroken) = false := by
        simp [WholeReason, hresult]
      rw [hwhole, ← hmessage]
      simp only [SyncReport.sheet, unreachable, List.map_cons, List.map_nil, List.any_cons,
        List.any_nil, Bool.or_false, StepMetric.line, ReportSheet.isBroken_stepLine]
      by_cases hempty : (Fault.connection url reason).message = ""
      · simp [hempty]
      · simp [hempty]

/-- The reports on databases can be printed unless one of these reasons has halves of pairs. -/
theorem whole_summaries_iff [Room] {es : List DatabaseEntry} {reports : List SyncReport}
    (hrun : databases settings source es w = .ok reports u) :
    (∀ report ∈ reports, report.summary.isBroken = false) ↔ ∀ e ∈ es, WholeReason source e := by
  induction es generalizing w reports with
  | nil =>
    cases hrun
    exact iff_of_true nofun nofun
  | cons e es ih =>
    rw [databases] at hrun
    obtain ⟨report, v, hfirst, hrest⟩ := bind_eq_ok_iff.1 hrun
    obtain ⟨rest, v', hlater, hpure⟩ := bind_eq_ok_iff.1 hrest
    obtain ⟨rfl, rfl⟩ := pure_eq_ok_iff.1 hpure
    rw [List.forall_mem_cons, List.forall_mem_cons, whole_summary_iff hfirst, ih hlater]

/-! ### Views -/

/-- What a view keeps of the file of a mapping. -/
def diskContent [Room] (s : ViewSource) (files : FileTree) (m : DiskMapping) :
    Except Fault (Option m.format.Content) :=
  if s.usesDisk then
    match files.read m.target with
    | .ok text => Content.parse m.format text
    | .error e => .error (.file e)
  else .ok none

/-- The binding of a view keeps what is read of the file. -/
theorem withDisk_of_content [Room] {content : Option m.format.Content} (settings : Settings)
    (h : diskContent s w.files m = .ok content) : ∃ u,
      withDisk s (bindingOf settings m) w = .ok { bindingOf settings m with disk := content } u := by
  have hdisk : (bindingOf settings m).disk = none := rfl
  rw [diskContent, ← path_bindingOf settings m] at h
  rw [withDisk]
  by_cases huses : s.usesDisk
  · rw [if_pos huses] at h ⊢
    cases hread : w.files.read (bindingOf settings m).path with
    | error fault =>
      rw [hread] at h
      cases h
    | ok text =>
      rw [hread] at h
      have hload := Binding.loadDisk_of_text hdisk hread
      simp only [h] at hload
      rw [bind_of_eq_ok hload]
      exact ⟨_, rfl⟩
  · rw [if_neg huses] at h ⊢
    cases h
    exact ⟨_, rfl⟩

/-- A view is refused where nothing can be kept of its file. -/
theorem withDisk_of_error [Room] {fault : Fault} (settings : Settings)
    (h : diskContent s w.files m = .error fault) :
    ∃ refusal u, withDisk s (bindingOf settings m) w = .error refusal u := by
  have hdisk : (bindingOf settings m).disk = none := rfl
  rw [diskContent, ← path_bindingOf settings m] at h
  rw [withDisk]
  by_cases huses : s.usesDisk
  · rw [if_pos huses] at h ⊢
    cases hread : w.files.read (bindingOf settings m).path with
    | error e =>
      obtain ⟨u, hload⟩ := Binding.loadDisk_of_error hdisk hread
      by_cases hsystem : (Fault.file e).isSystemFault
      · rw [if_pos hsystem] at hload
        rw [bind_of_eq_ok hload]
        exact ⟨_, _, rfl⟩
      · rw [if_neg hsystem] at hload
        exact ⟨_, _, bind_of_eq_error hload⟩
    | ok text =>
      rw [hread] at h
      have hload := Binding.loadDisk_of_text hdisk hread
      simp only [h] at hload
      exact ⟨_, _, bind_of_eq_error hload⟩
  · rw [if_neg huses] at h
    cases h

/-! ### The text of a view -/

theorem marked_content [Room] (content : f.Content) :
    Marked ((Content.texts content).flatMap (·.halves)) (Content.render (Content.shownBy '?' content))
      (Content.render (Content.shownBy '!' content)) := by
  cases f with
  | json => exact Json.marked_renderAt 0 content
  | prisma => exact .refl _

/-- Providers stand in the header of a schema as they are. -/
theorem marked_render_header {halves halves' : List Nat} {generator generator' : Generator}
    {datasource datasource' : Datasource}
    (h : Marked halves generator.provider.toList generator'.provider.toList)
    (h' : Marked halves' datasource.provider.toList datasource'.provider.toList)
    (hname : generator.name = generator'.name) (hname' : datasource.name = datasource'.name)
    (schema : Schema) : Marked (halves ++ halves')
      (Schema.render { schema with generator := generator, datasource := datasource })
      (Schema.render { schema with generator := generator', datasource := datasource' }) := by
  have hgenerator : Marked halves generator.render generator'.render := by
    unfold Generator.render
    rewrite [hname]
    exact (h.prepend _).followed _
  have hdatasource : Marked halves' datasource.render datasource'.render := by
    unfold Datasource.render
    rewrite [hname']
    exact (((h'.prepend _).followed _).followed _).followed _
  exact (((hgenerator.followed _).append hdatasource).followed _).followed _

/-- The header that settings give a content is written of their providers. -/
theorem marked_withHeader [Room] (settings : Settings) (content : f.Content) :
    Marked ((settings.headerTexts f).flatMap (·.halves))
      (Content.render (withHeader (settings.shownBy '?') content))
      (Content.render (withHeader (settings.shownBy '!') content)) := by
  cases f with
  | json => exact .refl _
  | prisma =>
    have hgenerator : Marked settings.generatorProvider.halves
        (settings.shownBy '?').generator.provider.toList
        (settings.shownBy '!').generator.provider.toList :=
      Marked.shownBy settings.generatorProvider
    have hdatasource : Marked settings.defaultProvider.halves
        (settings.shownBy '?').datasource.provider.toList
        (settings.shownBy '!').datasource.provider.toList :=
      Marked.shownBy settings.defaultProvider
    have hheader := marked_render_header hgenerator hdatasource rfl rfl content
    rw [Settings.headerTexts, List.flatMap_cons, List.flatMap_singleton]
    exact hheader

theorem marked_labelled [Room] {halves : List Nat} {content content' : f.Content}
    (h : Marked halves (Content.render content) (Content.render content')) (label : String) :
    Marked halves (Binding.labelled label content) (Binding.labelled label content') :=
  (h.prepend _).followed _

/-- The text of a view has halves of pairs exactly where a text has that is kept of the file, or a
provider, where something is kept of the database. -/
theorem isBroken_shownText [Room] (settings : Settings) (b : Binding f) :
    (shownText settings b).isBroken =
      (((b.disk.map Content.texts).getD []).any (·.isBroken) ||
        b.database.isSome && (settings.headerTexts f).any (·.isBroken)) := by
  have hdisk : Marked (((b.disk.map Content.texts).getD []).flatMap (·.halves))
      (((b.disk.map (Content.shownBy '?')).map (Binding.labelled Binding.diskLabel)).getD [])
      (((b.disk.map (Content.shownBy '!')).map (Binding.labelled Binding.diskLabel)).getD []) := by
    cases b.disk with
    | none => exact .nil
    | some content => exact marked_labelled (marked_content content) _
  have hdatabase : Marked
      ((if b.database.isSome then settings.headerTexts f else []).flatMap (·.halves))
      (((b.database.map (withHeader (settings.shownBy '?'))).map
        (Binding.labelled Binding.databaseLabel)).getD [])
      (((b.database.map (withHeader (settings.shownBy '!'))).map
        (Binding.labelled Binding.databaseLabel)).getD []) := by
    cases b.database with
    | none => exact .nil
    | some content => exact marked_labelled (marked_withHeader settings content) _
  have hboth := hdisk.append hdatabase
  rw [← List.flatMap_append] at hboth
  rw [shownText]
  refine (LooseText.isBroken_written ?_).trans ?_
  · exact hboth
  · rw [List.any_append]
    cases b.database <;> simp

/-- What a view would show has no halves of pairs: no text of what is kept of the file has, and no
provider, where the view is of the database. -/
def Printable [Room] (settings : Settings) (source : Survey.Source) (e : DatabaseEntry) (s : ViewSource)
    (m : DiskMapping) (files : FileTree) : Prop :=
  ∀ content, diskContent s files m = .ok content →
    (s.usesDatabase → ∃ found, (source e.url).result = .ok found) →
      (∀ c ∈ content, ∀ t ∈ Content.texts c, t.isBroken = false) ∧
        (s.usesDatabase → ∀ t ∈ settings.headerTexts m.format, t.isBroken = false)

theorem whole_view_iff [Room] (h : Answers source e) (hm : e.mapping? f = some m) (s : ViewSource) :
    (∀ text u, view settings source e f s.word w = .ok text u → text.isBroken = false) ↔
      Printable settings source e s m w.files := by
  rw [view_of_mapping hm]
  cases hcontent : diskContent s w.files m with
  | error fault =>
    obtain ⟨refusal, u, hdisk⟩ := withDisk_of_error settings hcontent
    rw [bind_of_eq_error hdisk]
    refine iff_of_true (by rintro _ _ ⟨⟩) fun content hfound => ?_
    rw [hcontent] at hfound
    cases hfound
  | ok content =>
    obtain ⟨u, hdisk⟩ := withDisk_of_content settings hcontent
    rw [bind_of_eq_ok hdisk]
    have hprintable : Printable settings source e s m w.files ↔
        ((s.usesDatabase → ∃ found, (source e.url).result = .ok found) →
          (∀ c ∈ content, ∀ t ∈ Content.texts c, t.isBroken = false) ∧
            (s.usesDatabase → ∀ t ∈ settings.headerTexts m.format, t.isBroken = false)) := by
      rw [Printable, hcontent]
      simp
    rw [hprintable]
    rcases shown_cases h settings s { bindingOf settings m with disk := content } u with
      ⟨tables, v, hfound, hshown⟩ | ⟨huses, url, reason, v, hfault, hshown⟩
    · rw [hshown, forall_prop_of_true hfound]
      have hwhole : (shownText settings (withDatabase s { bindingOf settings m with disk := content }
          tables)).isBroken = (((content.map Content.texts).getD []).any (·.isBroken) ||
            s.usesDatabase && (settings.headerTexts m.format).any (·.isBroken)) := by
        rw [isBroken_shownText, withDatabase]
        cases s.usesDatabase <;> rfl
      simp only [EStateM.Result.ok.injEq, and_imp, forall_apply_eq_imp_iff, forall_eq', hwhole,
        Bool.or_eq_false_iff]
      cases content <;> cases s.usesDatabase <;> simp [List.any_eq_false]
    · rw [hshown]
      refine iff_of_true (by rintro _ _ ⟨⟩) fun hreached => ?_
      obtain ⟨found, hfound⟩ := hreached huses
      rw [hfault] at hfound
      cases hfound

end Sync

end CatalogSync
