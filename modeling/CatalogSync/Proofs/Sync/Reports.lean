import CatalogSync.Proofs.Files.Breaks
import CatalogSync.Proofs.Sync.Basic

/-!
What synchronising reports. It ends in reports, one on each database, unless a database gives rows that
break the rules or the writing of a file fails of itself; what a report says of a database and of its
files is told by the answer of the database and by the writings.
-/

namespace CatalogSync

open FileFault (Broken)

variable {settings : Settings} {source : Survey.Source} {e : DatabaseEntry} {t : FileTree}
  {w u : Workspace} {found : Introspection} {report : SyncReport}

namespace Binding

variable {f : Format} {b : Binding f} {tables : List Table} {transfer : Transfer}

/-- A binding is written, or the refusal of that is reported, unless the writing fails of itself. -/
theorem exists_written_iff [Room] : (∃ transfer, (b.written tables t).2 = .ok transfer) ↔
    ¬t.Breaks b.path b.halves := by
  rw [← FileTree.broken_write_iff (Content.render (b.contentOf tables)), written]
  cases hwrite : (t.write b.path (Content.render (b.contentOf tables)) b.halves).2 with
  | ok n => exact iff_of_true ⟨_, rfl⟩ (FileFault.not_broken_ok n)
  | error e =>
    rw [FileFault.broken_error_iff]
    dsimp only [transferOf]
    cases (Fault.file e).isSystemFault <;> simp

/-- A fault of the writing of a binding is none of the system, whose refusals are reported. -/
theorem isSystemFault_of_written [Room] {fault : Fault} (h : (b.written tables t).2 = .error fault) :
    ∃ e, fault = .file e ∧ (Fault.file e).isSystemFault = false := by
  rw [written] at h
  cases hwrite : (t.write b.path (Content.render (b.contentOf tables)) b.halves).2 with
  | ok n =>
    rw [hwrite] at h
    cases h
  | error e =>
    rw [hwrite, transferOf] at h
    split at h
    · cases h
    next hsystem =>
      cases h
      exact ⟨e, rfl, eq_false_of_ne_true hsystem⟩

/-- A transfer is that of the file of its binding. -/
theorem transfer_of_written [Room] (h : (b.written tables t).2 = .ok transfer) :
    transfer.format = f ∧ transfer.path = b.path.toString := by
  rw [written] at h
  cases hwrite : (t.write b.path (Content.render (b.contentOf tables)) b.halves).2 with
  | ok n =>
    rw [hwrite] at h
    cases h
    exact ⟨rfl, rfl⟩
  | error e =>
    rw [hwrite, transferOf] at h
    split at h
    · cases h
      exact ⟨rfl, rfl⟩
    · cases h

end Binding

namespace Sync

/-! ### One thing after another -/

section
variable {α β ε σ : Type} {act : α → σ → σ × Except ε β} {as : List α} {s : σ}

/-- What holds at each turn of a list holds at its first, and at each turn of the rest. -/
theorem forall_turns_cons {P : List α → α → Prop} {a : α} :
    (∀ before a' after, a :: as = before ++ a' :: after → P before a') ↔
      P [] a ∧ ∀ before a' after, as = before ++ a' :: after → P (a :: before) a' := by
  constructor
  · intro h
    exact ⟨h [] a as rfl, fun before a' after hsplit =>
      h (a :: before) a' after (by rw [hsplit, List.cons_append])⟩
  · rintro ⟨hfirst, hrest⟩ before a' after hsplit
    rcases List.cons_eq_append_iff.1 hsplit with ⟨rfl, hsplit⟩ | ⟨before, rfl, hsplit⟩
    · cases hsplit
      exact hfirst
    · exact hrest before a' after (List.cons.inj hsplit).2

/-- All of it goes well exactly if each part does, after what the parts before it left. -/
theorem exists_inTurn_iff : (∃ bs, (inTurn act as s).2 = .ok bs) ↔
    ∀ before a after, as = before ++ a :: after →
      ∃ b, (act a (inTurn act before s).1).2 = .ok b := by
  induction as generalizing s with
  | nil => exact iff_of_true ⟨[], rfl⟩ (by simp)
  | cons a as ih =>
    rw [forall_turns_cons, inTurn_nil]
    cases hfirst : (act a s).2 with
    | error e =>
      rw [inTurn_of_error hfirst]
      exact iff_of_false nofun fun h => nomatch h.1
    | ok b =>
      have hlater : (∃ bs, (inTurn act (a :: as) s).2 = .ok bs) ↔
          ∃ bs, (inTurn act as (act a s).1).2 = .ok bs := by
        rw [inTurn_of_ok hfirst]
        cases (inTurn act as (act a s).1).2 <;> simp [Except.map]
      rw [hlater, ih, and_iff_right ⟨b, rfl⟩]
      simp only [inTurn_of_ok hfirst]

/-- A fault of all of it is that of a part. -/
theorem exists_of_inTurn_error {e : ε} (h : (inTurn act as s).2 = .error e) :
    ∃ a s, (act a s).2 = .error e := by
  induction as generalizing s with
  | nil => cases h
  | cons a as ih =>
    cases hfirst : (act a s).2 with
    | error e' =>
      rw [inTurn_of_error hfirst] at h
      cases h
      exact ⟨a, s, hfirst⟩
    | ok b =>
      rw [inTurn_of_ok hfirst] at h
      cases hrest : (inTurn act as (act a s).1).2 with
      | ok rest =>
        rw [hrest] at h
        cases h
      | error e' =>
        rw [hrest] at h
        cases h
        exact ih hrest

/-- What comes of all of it comes of the parts, in their order. -/
theorem forall₂_of_inTurn {bs : List β} (h : (inTurn act as s).2 = .ok bs) :
    List.Forall₂ (fun a b => ∃ s, (act a s).2 = .ok b) as bs := by
  induction as generalizing s bs with
  | nil =>
    cases h
    exact .nil
  | cons a as ih =>
    cases hfirst : (act a s).2 with
    | error e =>
      rw [inTurn_of_error hfirst] at h
      cases h
    | ok b =>
      rw [inTurn_of_ok hfirst] at h
      cases hrest : (inTurn act as (act a s).1).2 with
      | error e =>
        rw [hrest] at h
        cases h
      | ok rest =>
        rw [hrest] at h
        cases h
        exact .cons ⟨s, hfirst⟩ (ih hrest)

end

/-! ### One database -/

/-- The database of an entry is read, or it cannot be reached. -/
def Answers (source : Survey.Source) (e : DatabaseEntry) : Prop :=
  (∃ found, (source e.url).result = .ok found) ∨
    ∃ url reason, (source e.url).result = .error (.connection url reason)

/-- No writing of a file fails of itself, each in the tree that the writings before it left. -/
def NoneBreaks [Room] (settings : Settings) (source : Survey.Source) (e : DatabaseEntry) (w : Workspace) :
    Prop :=
  ∀ found, (source e.url).result = .ok found →
    ∀ earlier m later, e.mappings = earlier ++ m :: later →
      ¬(left (database settings source { e with mappings := earlier } w)).files.Breaks m.target
        (bindingOf settings m).halves

/-- Synchronising a database ends in a report exactly if the database is read or cannot be reached, and
no writing fails of itself. -/
theorem exists_database_iff [Room] : (∃ report u, database settings source e w = .ok report u) ↔
    Answers source e ∧ NoneBreaks settings source e w := by
  cases hresult : (source e.url).result with
  | error fault =>
    obtain ⟨elapsed, u, -, happly⟩ := database_of_error hresult settings w
    have hnone : NoneBreaks settings source e w := by
      intro found hfound
      rw [hresult] at hfound
      cases hfound
    rw [and_iff_left hnone, happly, Answers, hresult]
    cases fault <;> simp
  | ok found =>
    have hanswers : Answers source e := .inl ⟨found, hresult⟩
    have hreport : (∃ report u, database settings source e w = .ok report u) ↔
        ∃ transfers, (inTurn (writtenFor settings found.tables) e.mappings w.files).2 =
          .ok transfers := by
      rw [← (database_of_found hresult settings w).1]
      simp only [transfersOf_eq_ok_iff]
      exact ⟨fun ⟨report, u, h⟩ => ⟨_, report, u, h, rfl⟩, fun ⟨_, report, u, h, _⟩ => ⟨report, u, h⟩⟩
    rw [hreport, exists_inTurn_iff, and_iff_right hanswers]
    have hturn : ∀ earlier m, (∃ transfer, (writtenFor settings found.tables m
          (inTurn (writtenFor settings found.tables) earlier w.files).1).2 = .ok transfer) ↔
        ¬(left (database settings source { e with mappings := earlier } w)).files.Breaks m.target
          (bindingOf settings m).halves := by
      intro earlier m
      rw [(database_of_found (e := { e with mappings := earlier }) hresult settings w).2]
      exact Binding.exists_written_iff
    constructor
    · intro h found' hfound earlier m later hsplit
      exact (hturn earlier m).1 (h earlier m later hsplit)
    · intro h earlier m later hsplit
      exact (hturn earlier m).2 (h found hresult earlier m later hsplit)

/-- Where synchronising a database that is read or cannot be reached ends in a fault, a writing failed of
itself. -/
theorem isSystemFault_of_database [Room] (h : Answers source e) {fault : Fault}
    (hrun : database settings source e w = .error fault u) :
    ∃ e, fault = .file e ∧ (Fault.file e).isSystemFault = false := by
  rcases h with ⟨found, hfound⟩ | ⟨url, reason, hfault⟩
  · have hwritten := (database_of_found hfound settings w).1
    rw [hrun] at hwritten
    obtain ⟨m, t, hm⟩ := exists_of_inTurn_error hwritten.symm
    exact Binding.isSystemFault_of_written hm
  · obtain ⟨elapsed, v, -, happly⟩ := database_of_error hfault settings w
    rw [happly] at hrun
    cases hrun

/-- What a report says of a database. One that could not be reached has no writings and no success; for
one that was read there is a writing for each of its files, in their order, and a step for the reading
and for each of them, and it is a success exactly if each writing is. -/
structure ReportsOn (source : Survey.Source) (e : DatabaseEntry) (report : SyncReport) : Prop where
  database : report.database = e.name
  unreached : ∀ fault, (source e.url).result = .error fault →
    report.writes = [] ∧ report.success = false
  reached : ∀ found, (source e.url).result = .ok found →
    report.writes.map (fun transfer => (transfer.format, transfer.path)) =
        e.mappings.map (fun m => (m.format, m.target.toString)) ∧
      report.steps.length = report.writes.length + 1 ∧
      (report.success ↔ ∀ transfer ∈ report.writes, transfer.success)

/-- A report on a database that was read tells of it and of its files. -/
theorem eq_completed_of_found [Room] (h : (source e.url).result = .ok found)
    (hrun : database settings source e w = .ok report u) :
    ∃ elapsed written, report = completed e.name found elapsed written := by
  obtain ⟨elapsed, v, -, hlook⟩ := look_apply source e.name e.url w
  rw [h] at hlook
  rw [database_eq, bind_of_eq_ok hlook, finish] at hrun
  obtain ⟨written, v', -, hrest⟩ := bind_eq_ok_iff.1 hrun
  refine ⟨elapsed, written, ?_⟩
  cases hempty : e.mappings.isEmpty <;> rw [hempty] at hrest <;> cases hrest <;> rfl

theorem reportsOn_of_database [Room] (hrun : database settings source e w = .ok report u) :
    ReportsOn source e report := by
  cases hresult : (source e.url).result with
  | error fault =>
    obtain ⟨elapsed, v, -, happly⟩ := database_of_error hresult settings w
    rw [happly] at hrun
    cases fault <;> cases hrun
    refine ⟨rfl, fun _ _ => ⟨rfl, rfl⟩, ?_⟩
    intro found hfound
    rw [hresult] at hfound
    cases hfound
  | ok found =>
    have hwritten := (database_of_found hresult settings w).1
    rw [hrun] at hwritten
    obtain ⟨elapsed, written, rfl⟩ := eq_completed_of_found hresult hrun
    refine ⟨rfl, ?_, ?_⟩
    · intro fault hfault
      rw [hresult] at hfault
      cases hfault
    · intro found' _
      have htransfers : List.Forall₂
          (fun m transfer => (m.format, m.target.toString) = (transfer.format, transfer.path))
          e.mappings (completed e.name found elapsed written).writes := by
        refine (forall₂_of_inTurn hwritten.symm).imp ?_
        rintro m transfer ⟨t, htransfer⟩
        obtain ⟨hformat, hpath⟩ := Binding.transfer_of_written htransfer
        rw [hformat, hpath, path_bindingOf]
      have hsuccess : (completed e.name found elapsed written).success =
          (completed e.name found elapsed written).writes.all (·.success) := rfl
      refine ⟨?_, ?_, ?_⟩
      · rw [eq_comm, ← List.forall₂_eq_eq_eq, List.forall₂_map_left_iff, List.forall₂_map_right_iff]
        exact htransfers
      · simp [completed]
      · rw [hsuccess, List.all_eq_true]

/-! ### All databases -/

/-- Synchronising databases ends in reports exactly if each of them does, after what those before it
left. -/
theorem exists_databases_iff [Room] {es : List DatabaseEntry} :
    (∃ reports u, databases settings source es w = .ok reports u) ↔
      ∀ before e after, es = before ++ e :: after →
        ∃ report u, database settings source e (left (databases settings source before w)) =
          .ok report u := by
  induction es generalizing w with
  | nil => exact iff_of_true ⟨[], w, rfl⟩ (by simp)
  | cons e es ih =>
    have hstart : left (databases settings source [] w) = w := rfl
    rw [forall_turns_cons, hstart]
    cases hfirst : database settings source e w with
    | error fault v =>
      rw [databases, bind_of_eq_error hfirst]
      refine iff_of_false ?_ ?_
      · rintro ⟨reports, u, ⟨⟩⟩
      · rintro ⟨⟨report, u, ⟨⟩⟩, -⟩
    | ok report v =>
      have hcons (rest : List DatabaseEntry) : databases settings source (e :: rest) w =
          (databases settings source rest >>= fun reports => pure (report :: reports)) v := by
        rw [databases, bind_of_eq_ok hfirst]
      have hlater : (∃ reports u, databases settings source (e :: es) w = .ok reports u) ↔
          ∃ reports u, databases settings source es v = .ok reports u := by
        rw [hcons]
        simp only [bind_eq_ok_iff, pure_eq_ok_iff]
        constructor
        · rintro ⟨_, _, reports, u, hrest, -⟩
          exact ⟨reports, u, hrest⟩
        · rintro ⟨reports, u, hrest⟩
          exact ⟨_, _, reports, u, hrest, rfl, rfl⟩
      rw [hlater, ih, and_iff_right ⟨report, v, rfl⟩]
      simp only [hcons, left_bind_pure]

/-- Synchronising all databases ends in reports exactly if each of them in turn does. -/
theorem exists_all_iff [Room] {r : Registry} : (∃ reports u, all settings source r w = .ok reports u) ↔
    ∀ before e after, r.sorted = before ++ e :: after →
      Answers source e ∧ NoneBreaks settings source e (left (databases settings source before w)) := by
  rw [all, exists_databases_iff]
  simp only [exists_database_iff]

/-- A fault of synchronising databases is that of one of them. -/
theorem exists_of_databases_error [Room] {es : List DatabaseEntry} {fault : Fault}
    (hrun : databases settings source es w = .error fault u) :
    ∃ e v, e ∈ es ∧ database settings source e v = .error fault u := by
  induction es generalizing w with
  | nil => cases hrun
  | cons e es ih =>
    rw [databases] at hrun
    cases hfirst : database settings source e w with
    | error fault' v =>
      rw [bind_of_eq_error hfirst] at hrun
      cases hrun
      exact ⟨e, w, List.mem_cons_self, hfirst⟩
    | ok report v =>
      rw [bind_of_eq_ok hfirst] at hrun
      cases hrest : databases settings source es v with
      | ok reports v' =>
        rw [bind_of_eq_ok hrest] at hrun
        cases hrun
      | error fault' v' =>
        rw [bind_of_eq_error hrest] at hrun
        cases hrun
        obtain ⟨e', v'', he', hdatabase⟩ := ih hrest
        exact ⟨e', v'', List.mem_cons_of_mem _ he', hdatabase⟩

/-- The reports are on the databases, in their order. -/
theorem reportsOn_of_databases [Room] {es : List DatabaseEntry} {reports : List SyncReport}
    (hrun : databases settings source es w = .ok reports u) :
    List.Forall₂ (ReportsOn source) es reports := by
  induction es generalizing w reports with
  | nil =>
    cases hrun
    exact .nil
  | cons e es ih =>
    rw [databases] at hrun
    obtain ⟨report, v, hfirst, hrest⟩ := bind_eq_ok_iff.1 hrun
    obtain ⟨rest, v', hlater, hpure⟩ := bind_eq_ok_iff.1 hrest
    obtain ⟨rfl, rfl⟩ := pure_eq_ok_iff.1 hpure
    exact .cons (reportsOn_of_database hfirst) (ih hlater)

end Sync

end CatalogSync
