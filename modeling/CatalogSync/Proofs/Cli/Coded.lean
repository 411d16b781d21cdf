import CatalogSync.Proofs.Cli.Answered
import CatalogSync.Proofs.Cli.Exit
import CatalogSync.Proofs.Sync.Printed

/-!
Commands that end with an exit code. A command does where all that it prints can be encoded, or where its
fault has an answer; what it needs for that is told for each of them.
-/

namespace CatalogSync.Cli

/-- A command ends with a code: all that it prints can be encoded, or its fault has an answer. -/
def Coded {σ : Type} : EStateM.Result Fault σ Done → Prop
  | .ok done _ => ∀ t ∈ done.printed, t.isBroken = false
  | .error e _ => e.isAnswered

section
variable {σ α : Type} {x : EStateM Fault σ α} {f : α → EStateM Fault σ Done} {t : σ} {fault : Fault}

theorem coded_error_iff : Coded (.error fault t : EStateM.Result Fault σ Done) ↔ fault.isAnswered :=
  Iff.rfl

theorem coded_printed_iff {code : ExitCode} {text : LooseText} :
    Coded (.ok { code := code, printed := [text] } t) ↔ text.isBroken = false :=
  List.forall_mem_singleton

/-- The last step of a command prints, and those before it must end well or have an answer. -/
theorem coded_bind_iff : Coded ((x >>= f) t) ↔
    Answered (x t) ∧ ∀ a u, x t = .ok a u → Coded (f a u) := by
  cases hx : x t with
  | error e u =>
    rw [bind_of_eq_error hx, coded_error_iff, answered_error_iff]
    exact ⟨fun h => ⟨h, by rintro _ _ ⟨⟩⟩, And.left⟩
  | ok a u =>
    rw [bind_of_eq_ok hx]
    refine ⟨fun h => ⟨answered_ok a u, ?_⟩, fun h => h.2 a u rfl⟩
    rintro _ _ ⟨⟩
    exact h

end

theorem coded_refuse (code : ExitCode) (text : LooseText) (s : Registry × Workspace) :
    Coded (refuse code text s) := List.forall_mem_nil _

/-- A broken record has no answer. -/
theorem isAnswered_of_toExcept {α : Type} {record : RecordName} {x : Validated α} {fault : Fault}
    (h : x.toExcept record = .error fault) : fault.isAnswered = false := by
  cases x with
  | valid a => cases h
  | invalid faults =>
    rw [Validated.toExcept, Validated.toExceptBy] at h
    split at h <;> cases h <;> rfl

section
variable {settings : Settings} {databases : Survey.Source} {r : Registry} {w : Workspace}
  {name : LooseText} {e : DatabaseEntry} {s : Registry × Workspace}

/-- A command that goes on with what an action on the workspace gives. -/
theorem coded_onWorkspace_bind_iff {α : Type} {act : Act α} {next : α → Registry.Act Done} :
    Coded ((Registry.Act.onWorkspace act >>= next) (r, w)) ↔
      Answered (act w) ∧ ∀ a u, act w = .ok a u → Coded (next a (r, u)) := by
  rw [coded_bind_iff, Registry.answered_onWorkspace_iff]
  refine and_congr_right fun _ => ⟨fun h a u hact => h a _ (Registry.onWorkspace_of_ok hact r), ?_⟩
  intro h a s hrun
  cases hact : act w with
  | ok b u =>
    rw [Registry.onWorkspace_of_ok hact] at hrun
    cases hrun
    exact h a u hact
  | error fault u =>
    rw [Registry.onWorkspace_of_error hact] at hrun
    cases hrun

theorem coded_withDatabase_iff {act : DatabaseEntry → Registry.Act Done} :
    Coded (withDatabase name act (r, w)) ↔ ∀ e, r.named? name = some e → Coded (act e (r, w)) := by
  rw [withDatabase_apply]
  cases r.named? name with
  | none => exact iff_of_true (coded_refuse _ _ _) nofun
  | some e => simp

theorem coded_withFormat_iff {f? : Option Format} {act : Format → Registry.Act Done} :
    Coded (withFormat f? act s) ↔ ∃ f, f? = some f ∧ Coded (act f s) := by
  cases f? with
  | none => exact iff_of_false (fun h => nomatch coded_error_iff.1 h) (by simp)
  | some f => simp [withFormat]

theorem coded_withMapping_iff {f : Format} {act : DiskMapping → Registry.Act Done} :
    Coded (withMapping e f act s) ↔ ∀ m, e.mapping? f = some m → Coded (act m s) := by
  rw [withMapping]
  cases e.mapping? f with
  | none => exact iff_of_true (coded_refuse _ _ _) nofun
  | some m => simp

section
variable [Room]

/-- What a command needs to end with an exit code. A name that is given to a new database is a text that
is not empty, and it has an address; what is bound has a format and a path that is a text and not empty;
the registry, where it changes, and the files that are synchronised can be written or the system refuses
that; and a view has a format and a source, and its file, where it is of the file, is legible. What is
printed has no halves of surrogate pairs: neither the addresses of a list, nor the reasons for which
databases cannot be reached that are synchronised, nor a view. -/
def Request.Ends (settings : Settings) (databases : Survey.Source) (r : Registry) (w : Workspace) :
    Request → Prop
  | .list => ∀ e ∈ r.entries, e.url.isBroken = false
  | .add name url => r.named? name = none → ∃ n u, name = .text n ∧ n ≠ "" ∧ url = some u ∧
    let e : DatabaseEntry := { name := n, url := u }
    r.accepts e → ¬w.files.Breaks r.path (r.push e).halfFault?
  | .remove name => ∀ e, r.named? name = some e →
    ¬w.files.Breaks r.path (r.erase e.name).halfFault?
  | .bind name f? path? => ∀ e, r.named? name = some e →
    ∃ f, f? = some f ∧ ∃ path, path? = some (.text path) ∧ path ≠ "" ∧
      let bound := { e with mappings := DatabaseEntry.rebind f path e.mappings }
      ¬w.files.Breaks r.path (r.replace e.name bound).halfFault?
  | .sync none => (∀ before e after, r.sorted = before ++ e :: after →
      Sync.NoneBreaks settings databases e (left (Sync.databases settings databases before w))) ∧
    ∀ e ∈ r.entries, Sync.WholeReason databases e
  | .sync (some name) => ∀ e, r.named? name = some e →
    Sync.NoneBreaks settings databases e w ∧ Sync.WholeReason databases e
  | .view name f? from? => ∀ e, r.named? name = some e → ∃ f, f? = some f ∧
    ∀ m, e.mapping? f = some m → ∃ s, from? = some s ∧
      (s.usesDisk → w.files.Legible m.target m.format) ∧
      Sync.Printable settings databases e s m w.files
  | .write name f? => ∀ e, r.named? name = some e → ∃ f, f? = some f ∧
    ∀ m, e.mapping? f = some m →
      Sync.NoneBreaks settings databases { e with mappings := [m] } w ∧
      Sync.WholeReason databases e

theorem coded_performList_iff : Coded (performList (r, w)) ↔
    Request.Ends settings databases r w .list := by
  have hprinted : ∃ printed, performList (r, w) = .ok { printed := printed } (r, w) ∧
      ((∀ t ∈ printed, t.isBroken = false) ↔ ∀ e ∈ r.sorted, e.url.isBroken = false) := by
    rw [performList, bind_of_eq_ok (Registry.current_apply r w)]
    cases r.sorted with
    | nil => exact ⟨_, rfl, by simp [emptyRegistryLine, line]⟩
    | cons e es => exact ⟨_, rfl, by simp [line, DatabaseEntry.display]⟩
  obtain ⟨printed, hperform, hwhole⟩ := hprinted
  rw [hperform, Request.Ends]
  refine hwhole.trans ?_
  simp only [(Registry.ordered_sorted r).perm.mem_iff]

theorem coded_performAdd_iff {url : Option LooseText} : Coded (performAdd name url (r, w)) ↔
    Request.Ends settings databases r w (.add name url) := by
  rw [performAdd, bind_of_eq_ok (Registry.current_apply r w), Request.Ends]
  cases hnamed : r.named? name with
  | some e => exact iff_of_true (coded_refuse _ _ _) nofun
  | none =>
    rw [if_neg (by decide), forall_prop_of_true rfl]
    have hstep := Registry.onWorkspace_ofExcept
      ((DatabaseEntry.decoder (.obj [("name", .str name),
        ("db_url", Json.ofOption Json.str url)])).toExcept .databaseEntry) r w
    cases hentry : (DatabaseEntry.decoder (.obj [("name", .str name),
        ("db_url", Json.ofOption Json.str url)])).toExcept .databaseEntry with
    | error fault =>
      rw [hentry] at hstep
      rw [bind_of_eq_error hstep, coded_error_iff, isAnswered_of_toExcept hentry]
      refine iff_of_false (by simp) ?_
      rintro ⟨n, u, rfl, hname, rfl, -⟩
      rw [DatabaseEntry.decoder_named hname u] at hentry
      cases hentry
    | ok e =>
      rw [hentry] at hstep
      obtain ⟨n, u, rfl, hname, rfl, rfl⟩ :=
        DatabaseEntry.eq_of_decoder_named (Validated.eq_valid_of_toExcept hentry)
      rw [bind_of_eq_ok hstep, coded_bind_iff, Registry.answered_add_iff]
      have hlast : ∀ added t, Registry.add { name := n, url := u } (r, w) = .ok added t →
          Coded ((if added then
              return { printed := [line (.text "Added database '" ++ .text n ++ .text "'.")] }
            else refuse .badInput (.text "Database '" ++ .text n ++
              .text "' was not added (empty or duplicate URL).") : Registry.Act Done) t) := by
        intro added t _
        cases added with
        | false => exact coded_refuse _ _ _
        | true => exact coded_printed_iff.2 (by simp [line])
      rw [and_iff_left hlast]
      simp [hname]

theorem coded_performRemove_iff : Coded (performRemove name (r, w)) ↔
    Request.Ends settings databases r w (.remove name) := by
  rw [performRemove, coded_withDatabase_iff, Request.Ends]
  refine forall₂_congr fun e hnamed => ?_
  obtain ⟨rfl, hfind⟩ := Registry.named?_eq_some_iff.1 hnamed
  have hremove : Answered (Registry.remove e.name (r, w)) ↔
      ¬w.files.Breaks r.path (r.erase e.name).halfFault? := by
    rw [Registry.answered_remove_iff, hfind]
    exact forall_prop_of_true rfl
  rw [coded_bind_iff, hremove]
  exact and_iff_left fun _ _ _ => coded_printed_iff.2 (by simp [line])

theorem coded_performBind_iff {f? : Option Format} {path? : Option LooseText} :
    Coded (performBind name f? path? (r, w)) ↔
      Request.Ends settings databases r w (.bind name f? path?) := by
  rw [performBind, coded_withDatabase_iff, Request.Ends]
  refine forall₂_congr fun e hnamed => ?_
  obtain ⟨rfl, hfind⟩ := Registry.named?_eq_some_iff.1 hnamed
  rw [coded_withFormat_iff]
  refine exists_congr fun f => and_congr_right fun _ => ?_
  cases path? with
  | none => exact iff_of_false (fun h => nomatch coded_error_iff.1 h) (by simp)
  | some path =>
    have hbind := Registry.bind_apply hfind f path w
    dsimp only
    cases hd : e.bind f path with
    | error fault =>
      simp only [hd] at hbind
      rw [bind_of_eq_error hbind, coded_error_iff, isAnswered_of_toExcept hd]
      refine iff_of_false (by simp) ?_
      rintro ⟨p, hp, hne, -⟩
      rw [DatabaseEntry.bind_eq_ok_iff.2 ⟨p, Option.some.inj hp, hne, rfl⟩] at hd
      cases hd
    | ok bound =>
      obtain ⟨p, rfl, hpath, rfl⟩ := DatabaseEntry.bind_eq_ok_iff.1 hd
      simp only [hd] at hbind
      rw [bind_of_eq_ok hbind, coded_bind_iff, Registry.answered_save_iff]
      refine (and_iff_left fun _ _ _ => coded_printed_iff.2 (by simp [line])).trans ?_
      simp [hpath, Registry.replace]

/-- Synchronising one database ends with a code exactly if no writing of a file fails of itself, and the
report can be printed. -/
theorem coded_syncOne_iff (h : Sync.Answers databases e) :
    Coded ((do return reported [← Registry.Act.onWorkspace (Sync.database settings databases e)] :
        Registry.Act Done) (r, w)) ↔
      Sync.NoneBreaks settings databases e w ∧ Sync.WholeReason databases e := by
  rw [coded_onWorkspace_bind_iff, Sync.answered_database_iff h]
  refine and_congr_right fun hnone => ?_
  obtain ⟨report, u, hrun⟩ := Sync.exists_database_iff.2 ⟨h, hnone⟩
  rw [← Sync.whole_summary_iff hrun, hrun]
  simp [Coded, pure, EStateM.pure, reported, line]

/-- Synchronising all databases ends with a code exactly if no writing of a file fails of itself, and the
reports can be printed. -/
theorem coded_syncAll_iff (h : ∀ e, Sync.Answers databases e) :
    Coded (performSync settings databases none (r, w)) ↔
      Request.Ends settings databases r w (.sync none) := by
  rw [performSync, bind_of_eq_ok (Registry.current_apply r w), coded_onWorkspace_bind_iff,
    Sync.answered_all_iff h, Request.Ends]
  refine and_congr_right fun hnone => ?_
  obtain ⟨reports, u, hrun⟩ := Sync.exists_all_iff.2 fun before e after hsplit =>
    ⟨h e, hnone before e after hsplit⟩
  have hwhole : (∀ report ∈ reports, report.summary.isBroken = false) ↔
      ∀ e ∈ r.entries, Sync.WholeReason databases e := by
    simp only [← (Registry.ordered_sorted r).perm.mem_iff]
    exact Sync.whole_summaries_iff hrun
  rw [hrun, ← hwhole]
  simp only [EStateM.Result.ok.injEq, and_imp, forall_apply_eq_imp_iff, forall_eq']
  cases reports with
  | nil =>
    exact iff_of_true (coded_printed_iff.2 (by simp [emptyRegistryLine, line])) (List.forall_mem_nil _)
  | cons report rest => simp [Coded, pure, EStateM.pure, reported, line]

theorem coded_performSync_iff (h : ∀ e, Sync.Answers databases e) {name? : Option LooseText} :
    Coded (performSync settings databases name? (r, w)) ↔
      Request.Ends settings databases r w (.sync name?) := by
  cases name? with
  | none => exact coded_syncAll_iff h
  | some name =>
    rw [performSync, coded_withDatabase_iff, Request.Ends]
    exact forall₂_congr fun e _ => coded_syncOne_iff (h e)

theorem coded_performWrite_iff (h : ∀ e, Sync.Answers databases e) {f? : Option Format} :
    Coded (performWrite settings databases name f? (r, w)) ↔
      Request.Ends settings databases r w (.write name f?) := by
  rw [performWrite, coded_withDatabase_iff, Request.Ends]
  refine forall₂_congr fun e _ => ?_
  rw [coded_withFormat_iff]
  refine exists_congr fun f => and_congr_right fun _ => ?_
  rw [coded_withMapping_iff]
  exact forall₂_congr fun m _ => coded_syncOne_iff (h _)

/-- What asking for a view comes to, where a file is bound for its format. -/
theorem performView_apply (settings : Settings) (databases : Survey.Source) (w : Workspace)
    {f : Format} {m : DiskMapping} (hnamed : r.named? name = some e) (hm : e.mapping? f = some m)
    (from? : Option ViewSource) : performView settings databases name (some f) from? (r, w) =
      match Sync.view settings databases e f (sourceWord from?) w with
      | .ok text u => .ok { printed := [text] } (r, u)
      | .error fault u =>
        if fault.isSystemFault ∨ fault.isConnectionFault then
          refuse .workFailed (.text s!"Could not load {f.word} schema of '" ++ name ++ .text "': " ++
            fault.message) (r, u)
        else .error fault (r, u) := by
  rw [performView, withDatabase_apply, hnamed]
  simp only [withFormat, withMapping, hm]
  simp only [tryCatch, tryCatchThe, MonadExceptOf.tryCatch, bind, EStateM.bind, EStateM.tryCatch,
    Registry.Act.onWorkspace]
  cases Sync.view settings databases e f (sourceWord from?) w with
  | ok text u => rfl
  | error fault u =>
    by_cases hcaught : fault.isSystemFault ∨ fault.isConnectionFault
    · simp only [if_pos hcaught]
      rfl
    · simp only [if_neg hcaught]
      rfl

/-- A view without a source is refused by a fault that has no answer. -/
theorem view_of_none (settings : Settings) (databases : Survey.Source) (e : DatabaseEntry)
    (f : Format) (w : Workspace) : Sync.view settings databases e f (sourceWord none) w =
      .error (.unknownSource (sourceWord none)) w := by
  have hparse : ViewSource.parse (sourceWord none) = .error (.unknownSource (sourceWord none)) := by
    decide
  rw [Sync.view, hparse]
  rfl

/-- A view ends with a code where it can be printed, or its fault has an answer or is that its database
cannot be reached. -/
theorem coded_performView_mapped_iff (settings : Settings) (databases : Survey.Source) (w : Workspace)
    {f : Format} {m : DiskMapping} (hnamed : r.named? name = some e) (hm : e.mapping? f = some m)
    (from? : Option ViewSource) :
    Coded (performView settings databases name (some f) from? (r, w)) ↔
      (∀ fault u, Sync.view settings databases e f (sourceWord from?) w = .error fault u →
        fault.isAnswered ∨ fault.isConnectionFault) ∧
      ∀ text u, Sync.view settings databases e f (sourceWord from?) w = .ok text u →
        text.isBroken = false := by
  rw [performView_apply settings databases w hnamed hm]
  cases Sync.view settings databases e f (sourceWord from?) w with
  | ok text u =>
    refine coded_printed_iff.trans ⟨fun hwhole => ⟨by rintro _ _ ⟨⟩, ?_⟩, fun h => h.2 _ _ rfl⟩
    rintro _ _ ⟨⟩
    exact hwhole
  | error fault u =>
    simp only [EStateM.Result.error.injEq, and_imp, forall_apply_eq_imp_iff, forall_eq', reduceCtorEq,
      false_imp_iff, implies_true, and_true]
    by_cases hcaught : fault.isSystemFault ∨ fault.isConnectionFault
    · rw [if_pos hcaught]
      refine iff_of_true (coded_refuse _ _ _) ?_
      rw [Fault.isAnswered, Bool.or_eq_true]
      exact hcaught.imp_left .inr
    · rw [if_neg hcaught, coded_error_iff]
      exact (or_iff_left fun hconnection => hcaught (.inr hconnection)).symm

theorem coded_performView_iff (h : ∀ e, Sync.Answers databases e) {f? : Option Format}
    {from? : Option ViewSource} : Coded (performView settings databases name f? from? (r, w)) ↔
      Request.Ends settings databases r w (.view name f? from?) := by
  rw [performView, coded_withDatabase_iff, Request.Ends]
  refine forall₂_congr fun e hnamed => ?_
  rw [coded_withFormat_iff]
  refine exists_congr fun f => and_congr_right fun _ => ?_
  cases hm : e.mapping? f with
  | none =>
    rw [coded_withMapping_iff, hm]
    exact iff_of_true nofun nofun
  | some m =>
    have hmapped := coded_performView_mapped_iff settings databases w hnamed hm from?
    rw [performView, withDatabase_apply, hnamed] at hmapped
    refine hmapped.trans ?_
    simp only [Option.some.injEq, forall_eq']
    cases from? with
    | none =>
      rw [view_of_none]
      refine iff_of_false (fun hcoded => ?_) (by simp)
      rcases hcoded.1 _ _ rfl with hanswered | hconnection
      · cases hanswered
      · cases hconnection
    | some s =>
      simp only [Option.some.injEq, exists_eq_left']
      exact and_congr (Sync.answered_view_iff (h e) hm s) (Sync.whole_view_iff (h e) hm s)

/-- Where each database is read or cannot be reached, a command ends with a code exactly if it has what it
needs. -/
theorem coded_perform_iff (h : ∀ e, Sync.Answers databases e) (request : Request) :
    Coded (perform settings databases request (r, w)) ↔ request.Ends settings databases r w := by
  cases request with
  | list => exact coded_performList_iff
  | add name url => exact coded_performAdd_iff
  | remove name => exact coded_performRemove_iff
  | bind name f path => exact coded_performBind_iff
  | sync name => exact coded_performSync_iff h
  | view name f from? => exact coded_performView_iff h
  | write name f => exact coded_performWrite_iff h

end

end

end CatalogSync.Cli
