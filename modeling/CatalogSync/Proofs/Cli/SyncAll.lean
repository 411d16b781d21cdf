import CatalogSync.Proofs.Cli.Exit
import CatalogSync.Proofs.Sync.Printed

/-!
Synchronising all databases. There is a report on each of them, in the order of their names, unless a
database gives rows that break the rules or the writing of a file fails of itself; the command ends in
success exactly if all reports are successes.
-/

namespace CatalogSync

namespace Cli

variable {settings : Settings} {source : Survey.Source} {r : Registry} {w u : Workspace}

/-- The command that synchronises all databases prints the reports, or that there is no database. -/
theorem performGuarded_syncAll [Room] {reports : List SyncReport}
    (h : Sync.all settings source r w = .ok reports u) :
    ∃ printed, performGuarded settings source (.sync none) (r, w) =
        .ok { code := codeOf reports, printed := printed } (r, u) ∧
      ((∀ t ∈ printed, t.isBroken = false) ↔ ∀ report ∈ reports, report.summary.isBroken = false) := by
  have hperform : performSync settings source none (r, w) =
      .ok (if reports = [] then { printed := [emptyRegistryLine] } else reported reports) (r, u) := by
    rw [performSync, bind_of_eq_ok (Registry.current_apply r w),
      bind_of_eq_ok (Registry.onWorkspace_of_ok h r)]
    cases reports <;> rfl
  rw [performGuarded, perform, tryCatch_of_eq_ok hperform]
  cases reports with
  | nil => exact ⟨_, rfl, by simp [emptyRegistryLine, line]⟩
  | cons report rest => exact ⟨_, rfl, by simp [line]⟩

/-- The command that synchronises all databases ends by what the reports say, where they can be
printed. -/
theorem exitOf_syncAll [Room] {reports : List SyncReport}
    (h : Sync.all settings source r w = .ok reports u) :
    (∀ report ∈ reports, report.summary.isBroken = false) ∧
        exitOf (performGuarded settings source (.sync none) (r, w)) = .ok (codeOf reports) ∨
      (∃ report ∈ reports, report.summary.isBroken = true) ∧
        ∃ fault, exitOf (performGuarded settings source (.sync none) (r, w)) =
          .error (.unencodable fault) := by
  obtain ⟨printed, hperform, hwhole⟩ := performGuarded_syncAll h
  rw [hperform, exitOf]
  by_cases hreports : ∀ report ∈ reports, report.summary.isBroken = false
  · exact .inl ⟨hreports, Done.exit_eq_ok_iff.2 ⟨hwhole.2 hreports, rfl⟩⟩
  · have hbroken : ∃ t ∈ printed, t.isBroken = true := by
      have hnone := mt hwhole.1 hreports
      simpa using hnone
    refine .inr ⟨by simpa using hreports, Done.exists_exit_of_broken hbroken⟩

end Cli

namespace Sync

variable {settings : Settings} {source : Survey.Source} {r : Registry} {w : Workspace}

/-- What comes of synchronising all databases. There are reports exactly if each database in turn is read
or cannot be reached, and no writing of a file fails of itself, each in the tree that what came before it
left; so there are where the paths have not too many names, none of which holds the null character, and
the settings have no halves of pairs. There is one report on each database, in the order of their names,
and a database that could not be read changed no file. The command then ends with success where all
reports are successes, as they are where there is no database, and with failed work otherwise; but it
ends in a fault where the reason for which a database cannot be reached has halves of pairs, so that the
report on it cannot be printed. -/
structure AllReported [Room] (settings : Settings) (source : Survey.Source) (r : Registry) (w : Workspace) :
    Prop where
  ordered : Registry.Ordered r.entries r.sorted
  returns : (∃ reports u, all settings source r w = .ok reports u) ↔
    ∀ before e after, r.sorted = before ++ e :: after →
      Answers source e ∧ NoneBreaks settings source e (left (databases settings source before w))
  returnsPlainly : (∀ e ∈ r.entries, Answers source e ∧ ∀ m ∈ e.mappings, m.target.hasNul = false ∧
      m.target.parent.parts.length < Room.directories ∧ (bindingOf settings m).halves = none) →
    ∃ reports u, all settings source r w = .ok reports u
  reports : ∀ reports u, all settings source r w = .ok reports u →
    List.Forall₂ (ReportsOn source) r.sorted reports
  unread : ∀ before e after, r.sorted = before ++ e :: after →
    ∀ fault, (source e.url).result = .error fault →
      (left (database settings source e (left (databases settings source before w)))).files =
        (left (databases settings source before w)).files
  exits : ∀ surroundings args start i, Cli.Reaches surroundings args start i settings r w →
    surroundings.databases = source → i.request = .sync none →
      ∀ reports u, all settings source r w = .ok reports u →
        ((∀ e ∈ r.entries, WholeReason source e) → (Cli.run surroundings args start).1.exit =
          .ok (if ∀ report ∈ reports, report.success then .success else .workFailed)) ∧
        ((∃ e ∈ r.entries, ¬WholeReason source e) → ∃ fault,
          (Cli.run surroundings args start).1.exit = .error (.unencodable fault))

theorem all_reported [Room] (settings : Settings) (source : Survey.Source) (r : Registry)
    (w : Workspace) : AllReported settings source r w where
  ordered := Registry.ordered_sorted r
  returns := exists_all_iff
  returnsPlainly hplain := by
    refine exists_all_iff.2 fun before e after hsplit => ?_
    have he : e ∈ r.sorted := by
      rw [hsplit]
      exact List.mem_append_right _ List.mem_cons_self
    obtain ⟨hanswers, hmappings⟩ := hplain e ((Registry.ordered_sorted r).perm.mem_iff.1 he)
    refine ⟨hanswers, fun found _ earlier m later hm => ?_⟩
    obtain ⟨hnul, hlength, hhalves⟩ := hmappings m (by simp [hm])
    rw [hhalves]
    exact FileTree.not_breaks hnul hlength
  reports reports u h := reportsOn_of_databases h
  unread before e after _ fault hfault := by
    obtain ⟨elapsed, v, hfiles, happly⟩ := database_of_error hfault settings
      (left (databases settings source before w))
    rw [happly]
    cases fault <;> exact hfiles
  exits surroundings args start i hreaches hsource hrequest reports u h := by
    have hwhole : (∀ report ∈ reports, report.summary.isBroken = false) ↔
        ∀ e ∈ r.entries, WholeReason source e := by
      simp only [← (Registry.ordered_sorted r).perm.mem_iff]
      exact whole_summaries_iff h
    rw [hreaches.exit_run, hsource, hrequest]
    rcases Cli.exitOf_syncAll h with ⟨hreports, hexit⟩ | ⟨⟨report, hreport, hbroken⟩, hexit⟩
    · refine ⟨fun _ => ?_, fun ⟨e, he, hnot⟩ => absurd (hwhole.1 hreports e he) hnot⟩
      rw [hexit, Cli.codeOf]
      simp only [List.all_eq_true]
    · refine ⟨fun hentries => ?_, fun _ => hexit⟩
      rw [hwhole.2 hentries report hreport] at hbroken
      cases hbroken

/-! ### Many missing directories -/

/-- A file under a number of directories. -/
def buriedFile (n : Nat) : DiskMapping where
  format := .json
  path := String.ofList ((List.replicate n ['d', '/']).flatten ++ "x.json".toList)

theorem partsOf_directory (rest : List Char) :
    Path.partsOf ('d' :: '/' :: rest) = "d" :: Path.partsOf rest := by
  have hsplit : Text.splitOn ['/'] ('d' :: '/' :: rest) = ['d'] :: Text.splitOn ['/'] rest := by
    simp [Text.splitOn, Text.splitFrom, Text.startsWith, Text.after?]
  rw [Path.partsOf, hsplit]
  rfl

theorem target_buriedFile (n : Nat) : (buriedFile n).target =
    ⟨.here, List.replicate n "d" ++ ["x.json"]⟩ := by
  have hparts : Path.partsOf ((List.replicate n ['d', '/']).flatten ++ "x.json".toList) =
      List.replicate n "d" ++ ["x.json"] := by
    induction n with
    | zero => decide
    | succ n ih =>
      rw [List.replicate_succ, List.flatten_cons, List.append_assoc]
      exact (partsOf_directory _).trans (congrArg _ ih)
  rw [DiskMapping.target, Path.ofString, buriedFile, String.toList_ofList, hparts]
  cases n <;> rfl

theorem size_directories (n : Nat) :
    ("/".intercalate (List.replicate n "d")).utf8ByteSize ≤ 2 * n := by
  induction n with
  | zero => decide
  | succ n ih =>
    by_cases hn : n = 0
    · subst hn
      decide
    · rw [List.replicate_succ', String.intercalate_append_of_ne_nil (by simpa using hn) (by simp),
        String.intercalate_singleton]
      simp only [String.utf8ByteSize_append]
      have hslash : "/".utf8ByteSize = 1 := rfl
      have hname : "d".utf8ByteSize = 1 := rfl
      omega

/-- In a tree of nothing but the root all directories of a path are missing but the first, which can be
made at once. -/
theorem buried_directories {n room : Nat} (hroom : room < n) (hlong : 2 * n ≤ FileTree.maxPath)
    (here : Location) :
    FileTree.Buried ⟨[], here⟩ ⟨.here, List.replicate n "d"⟩ room := by
  induction room generalizing n with
  | zero => exact FileTree.buried_zero _ _
  | succ room ih =>
    obtain ⟨m, rfl⟩ : ∃ m, n = m + 2 := ⟨n - 2, by omega⟩
    refine FileTree.buried_succ_iff.2 ⟨?_, ?_⟩
    · have hsize := size_directories (m + 2)
      have hfits : ¬FileTree.maxPath <
          (Path.toString ⟨.here, List.replicate (m + 2) "d"⟩).utf8ByteSize := by
        rw [Path.toString_of_here rfl]
        split
        · decide
        · exact Nat.not_lt.2 (Nat.le_trans hsize hlong)
      have hstep : FileTree.step here "d" = .ok (here ++ ["d"]) := rfl
      have hnone : FileTree.entry? ⟨[], here⟩ (here ++ ["d"]) = none := by
        rw [FileTree.entry?, if_neg (by simp)]
        rfl
      rw [FileTree.locate, if_neg hfits, if_pos rfl, List.replicate_succ, List.replicate_succ,
        FileTree.follow, hstep]
      simp only [bind, Except.bind, hnone]
    · have hparent : Path.parent ⟨.here, List.replicate (m + 2) "d"⟩ =
          ⟨.here, List.replicate (m + 1) "d"⟩ := by
        simp [Path.parent]
      rw [hparent]
      exact ih (by omega) (by omega)

section
open scoped Room

/-- Databases without tables. -/
def tableless : Survey.Source := fun _ => { result := .ok {}, events := [], notes := [] }

/-- A database whose file has too many directories missing above it. -/
def buriedEntry : DatabaseEntry where
  name := "shop"
  url := "mysql://h/shop"
  mappings := [buriedFile 1500]

/-- Synchronising all databases does not always end in reports, although each database is read and no
path holds the null character. -/
theorem all_buriedEntry_ne : Answers tableless buriedEntry ∧
    (∀ m ∈ buriedEntry.mappings, m.target.hasNul = false) ∧
    ¬∃ reports u, all {} tableless ⟨⟨.here, ["s"]⟩, [buriedEntry]⟩ .bare = .ok reports u := by
  have hsorted : Registry.sorted ⟨⟨.here, ["s"]⟩, [buriedEntry]⟩ = [buriedEntry] :=
    List.mergeSort_singleton _
  refine ⟨.inl ⟨{}, rfl⟩, ?_, ?_⟩
  · intro m hm
    rw [List.mem_singleton.1 hm, target_buriedFile, Path.hasNul, List.any_eq_false]
    intro name hname
    rcases List.mem_append.1 hname with hname | hname
    · rw [List.eq_of_mem_replicate hname]
      decide
    · rw [List.mem_singleton.1 hname]
      decide
  · intro h
    obtain ⟨-, hnone⟩ := exists_all_iff.1 h [] buriedEntry [] hsorted
    refine hnone {} rfl [] (buriedFile 1500) [] rfl ?_
    have hfiles : (left (database {} tableless { buriedEntry with mappings := [] }
        (left (databases {} tableless [] .bare)))).files = Workspace.bare.files :=
      (database_of_found (e := { buriedEntry with mappings := [] }) rfl {} .bare).2
    have hparent : (buriedFile 1500).target.parent = ⟨.here, List.replicate 1500 "d"⟩ := by
      rw [target_buriedFile, Path.parent, List.dropLast_concat]
    have hneeds : FileTree.needsDirectory (buriedFile 1500).target := by
      refine decide_eq_true fun hdot => ?_
      have hnil := (Path.normal_ofString (buriedFile 1500).path).parent.parts_eq_nil
        (by rw [← DiskMapping.target, hparent]) hdot
      rw [← DiskMapping.target, hparent] at hnil
      exact absurd ((List.replicate_eq_nil_iff "d").1 hnil) (by decide)
    have hburied : FileTree.Buried Workspace.bare.files (buriedFile 1500).target.parent
        Room.directories := by
      rw [hparent]
      exact buried_directories (by decide) (by decide) ["home"]
    rw [hfiles]
    exact .buried hneeds hburied

end

end Sync

end CatalogSync
