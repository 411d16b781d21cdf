import CatalogSync.Proofs.Registry.Aftermath
import CatalogSync.Proofs.Registry.Orderly
import CatalogSync.Proofs.Sync.Independent
import CatalogSync.Proofs.Sync.Reports

/-!
How many files of a format an entry has. Binding puts the new path in the place of the first file of its format,
so no call gives an entry a second one; but an entry is taken in with the files that it comes with, whether it
is read or added. So a registry keeps to one file of each format exactly where all entries that it takes in do,
and a binding moves one file of an entry that came with several, while synchronising writes them all.
-/

namespace CatalogSync

namespace DatabaseEntry

variable {d e : DatabaseEntry} {f : Format} {path : String}

/-- The files of a format, in their order. -/
def filesOf (e : DatabaseEntry) (f : Format) : List DiskMapping := e.mappings.filter (·.format = f)

/-- Of each format the entry has one file at most. -/
def OneToFormat (e : DatabaseEntry) : Prop := (e.mappings.map (·.format)).Nodup

instance (e : DatabaseEntry) : Decidable e.OneToFormat :=
  inferInstanceAs (Decidable (e.mappings.map (·.format)).Nodup)

theorem length_filesOf (e : DatabaseEntry) (f : Format) :
    (e.filesOf f).length = (e.mappings.map (·.format)).count f := by
  rw [filesOf, ← List.countP_eq_length_filter, List.count, List.countP_map]
  exact List.countP_congr fun m _ => by simp

theorem oneToFormat_iff : e.OneToFormat ↔ ∀ f, (e.filesOf f).length ≤ 1 := by
  simp only [OneToFormat, List.nodup_iff_count_le_one, length_filesOf]

theorem OneToFormat.tail_filesOf (h : e.OneToFormat) (f : Format) : (e.filesOf f).tail = [] := by
  have hlength := oneToFormat_iff.1 h f
  rw [← List.length_eq_zero_iff, List.length_tail]
  omega

/-- The new file stands in front of those of its format that followed the first one. -/
theorem filter_rebind (f : Format) (path : String) (ms : List DiskMapping) :
    (rebind f path ms).filter (·.format = f) = ⟨f, path⟩ :: (ms.filter (·.format = f)).tail := by
  induction ms with
  | nil => simp [rebind]
  | cons m ms ih =>
    rw [rebind]
    by_cases hm : m.format = f
    · rw [if_pos hm, List.filter_cons_of_pos (by simpa using hm), List.filter_cons_of_pos (by simpa using hm),
        List.tail_cons, ← hm]
    · rw [if_neg hm, List.filter_cons_of_neg (by simpa using hm), List.filter_cons_of_neg (by simpa using hm),
        ih]

theorem filesOf_bind (h : d.bind f path = .ok e) : e.filesOf f = ⟨f, path⟩ :: (d.filesOf f).tail := by
  obtain ⟨p, hp, -, rfl⟩ := bind_eq_ok_iff.1 h
  cases hp
  exact filter_rebind f path d.mappings

theorem OneToFormat.bind {path : LooseText} (h : d.OneToFormat) (hbind : d.bind f path = .ok e) : e.OneToFormat := by
  obtain ⟨p, -, -, rfl⟩ := bind_eq_ok_iff.1 hbind
  exact (setsPath_rebind f p d.mappings).nodup h

end DatabaseEntry

/-- Of the format that was bound last, synchronising writes the bound path, and then those of the other files of
that format. -/
theorem Sync.paths_of_bind [Room] {settings : Settings} {source : Survey.Source} {d e : DatabaseEntry}
    {f : Format} {path : String} {w u : Workspace} {found : Introspection} {report : SyncReport}
    (hbind : d.bind f path = .ok e) (hfound : (source e.url).result = .ok found)
    (hrun : database settings source e w = .ok report u) :
    (report.writes.filter (·.format = f)).map (·.path) =
      (Path.ofString path).toString :: (d.filesOf f).tail.map (·.target.toString) := by
  obtain ⟨hwrites, -, -⟩ := (reportsOn_of_database hrun).reached found hfound
  have hpaths := congrArg (fun writes => (writes.filter (·.1 = f)).map (·.2)) hwrites
  simp only [List.filter_map, List.map_map, Function.comp_def] at hpaths
  have hfiles : e.mappings.filter (fun m => decide (m.format = f)) = e.filesOf f := rfl
  rw [hpaths, hfiles, DatabaseEntry.filesOf_bind hbind, List.map_cons]
  rfl

namespace Registry

open DatabaseEntry (OneToFormat)

variable {e : DatabaseEntry} {s : Registry × Workspace}

/-- The entries that a call takes in: those of the file that reading accepts, or one that is added and accepted.
Binding a file takes in none. -/
def Call.taken [Room] : Call → Registry × Workspace → List DatabaseEntry
  | .load, (r, w) => firstOfUrls (storedIn w.files r.path)
  | .add e _, (r, _) => if r.accepts e then [e] else []
  | .remove _, _ => []
  | .save, _ => []
  | .rebind _ _ _, _ => []

/-! ### One call -/

/-- A call takes entries into the registry. -/
theorem Call.mem_perform_of_taken [Room] (c : Call) (h : e ∈ c.taken s) :
    e ∈ (left (c.perform s)).1.entries := by
  obtain ⟨r, w⟩ := s
  cases c with
  | load =>
    rw [perform, left_bind_pure, left_load_fst]
    exact h
  | add d sound =>
    rw [perform, (add_cases r d w).1, offer]
    rw [taken] at h
    split at h
    next haccepts =>
      rw [if_pos haccepts]
      exact List.mem_append_right _ h
    next => exact absurd h List.not_mem_nil
  | remove name => exact absurd h List.not_mem_nil
  | save => exact absurd h List.not_mem_nil
  | rebind place f path => exact absurd h List.not_mem_nil

/-- An entry that a call leaves was taken in by it, or was there and perhaps bound to a file. -/
theorem Call.mem_perform_cases [Room] (c : Call) (h : e ∈ (left (c.perform s)).1.entries) :
    e ∈ c.taken s ∨ e ∈ s.1.entries ∨ ∃ d ∈ s.1.entries, ∃ f path, d.bind f path = .ok e := by
  obtain ⟨r, w⟩ := s
  cases c with
  | load =>
    rw [perform, left_bind_pure, left_load_fst] at h
    exact .inl h
  | add d sound =>
    rw [perform, (add_cases r d w).1, offer] at h
    rw [taken]
    split at h
    next haccepts =>
      rw [if_pos haccepts]
      exact (List.mem_append.1 h).symm.imp_right .inl
    next => exact .inr (.inl h)
  | remove name =>
    rw [perform, (remove_cases r name w).1] at h
    exact .inr (.inl (List.mem_of_mem_eraseP h))
  | save =>
    rw [perform, left_bind_pure, left_save] at h
    exact .inr (.inl h)
  | rebind place f path =>
    rw [perform, left_bind_pure] at h
    rcases rebindAt_cases r place f path w with hleft | ⟨d, d', hplace, hbind, hleft⟩
    · rw [hleft] at h
      exact .inr (.inl h)
    · rw [hleft] at h
      rcases List.mem_or_eq_of_mem_set h with h | rfl
      · exact .inr (.inl h)
      · exact .inr (.inr ⟨d, List.mem_of_getElem? hplace, f, path, hbind⟩)

/-- A call that takes in entries with one file of each format keeps to that. -/
theorem Call.oneToFormat_perform [Room] (c : Call) (hs : ∀ e ∈ s.1.entries, e.OneToFormat)
    (htaken : ∀ e ∈ c.taken s, e.OneToFormat) :
    ∀ e ∈ (left (c.perform s)).1.entries, e.OneToFormat := by
  intro e he
  rcases c.mem_perform_cases he with h | h | ⟨d, hd, f, path, hbind⟩
  · exact htaken e h
  · exact hs e h
  · exact (hs d hd).bind hbind

/-! ### Histories -/

theorem afterCalls_concat [Room] (calls : List Call) (c : Call) (s : Registry × Workspace) :
    afterCalls (calls ++ [c]) s = left (c.perform (afterCalls calls s)) := List.foldl_concat ..

theorem oneToFormat_afterCalls [Room] {calls : List Call} (hs : ∀ e ∈ s.1.entries, e.OneToFormat)
    (htaken : ∀ done c, done ++ [c] <+: calls → ∀ e ∈ c.taken (afterCalls done s), e.OneToFormat) :
    ∀ e ∈ (afterCalls calls s).1.entries, e.OneToFormat := by
  induction calls using List.reverseRecOn with
  | nil => exact hs
  | append_singleton calls c ih =>
    rw [afterCalls_concat]
    refine c.oneToFormat_perform (ih fun done c' hdone => ?_) (htaken calls c (List.prefix_refl _))
    exact htaken done c' (hdone.trans (List.prefix_append calls [c]))

/-- Through any calls, going well or failing, from any files at all, every entry keeps to one file of each format
exactly if every entry that a call takes in does. And synchronising an entry to which a file was bound writes, of
the format of that file, its path and those of the files that followed the first one of that format before:
nothing but its path where the entry kept to one file of each format. -/
theorem oneToFormat_afterCalls_iff [Room] (path : Path) (w : Workspace) (calls : List Call) :
    ((∀ done, done <+: calls → ∀ e ∈ (afterCalls done ({ path := path }, w)).1.entries,
        e.OneToFormat) ↔
      ∀ done c, done ++ [c] <+: calls → ∀ e ∈ c.taken (afterCalls done ({ path := path }, w)),
        e.OneToFormat) ∧
    ∀ (d e : DatabaseEntry) (f : Format) (bound : String) (settings : Settings)
      (source : Survey.Source) (found : Introspection) (v u : Workspace) (report : SyncReport),
      d.bind f bound = .ok e → (source e.url).result = .ok found →
      Sync.database settings source e v = .ok report u →
        (report.writes.filter (·.format = f)).map (·.path) =
          (Path.ofString bound).toString :: (d.filesOf f).tail.map (·.target.toString) ∧
        (d.OneToFormat → ∀ transfer ∈ report.writes, transfer.format = f →
          transfer.path = (Path.ofString bound).toString) := by
  refine ⟨⟨fun h done c hdone e he => ?_, fun h done hdone => ?_⟩, ?_⟩
  · refine h (done ++ [c]) hdone e ?_
    rw [afterCalls_concat]
    exact c.mem_perform_of_taken he
  · refine oneToFormat_afterCalls (fun e he => absurd he List.not_mem_nil) fun done' c hdone' => ?_
    exact h done' c (hdone'.trans hdone)
  · intro d e f bound settings source found v u report hbind hfound hrun
    have hpaths := Sync.paths_of_bind hbind hfound hrun
    refine ⟨hpaths, fun hd transfer htransfer hformat => ?_⟩
    rw [hd.tail_filesOf, List.map_nil] at hpaths
    have hmem : transfer.path ∈ (report.writes.filter (·.format = f)).map (·.path) :=
      List.mem_map_of_mem (List.mem_filter.2 ⟨htransfer, by simpa using hformat⟩)
    rw [hpaths] at hmem
    exact List.mem_singleton.1 hmem

section
open scoped Room

/-- An entry with a file of each format. -/
def pairedEntry : DatabaseEntry where
  name := "shop"
  url := "mysql://h/shop"
  mappings := [⟨.prisma, "shop.prisma"⟩, ⟨.json, "a.json"⟩]

theorem pairedEntry_sound : pairedEntry.Sound where
  name := by decide
  paths := by decide

/-- The entry is added and bound to another file, and taken out under a name that it does not have. -/
def pairedCalls : List Call :=
  [.add pairedEntry pairedEntry_sound, .rebind 0 .json "c.json", .remove "store"]

/-- The entry bound to another file. -/
def reboundEntry : DatabaseEntry :=
  { pairedEntry with mappings := [⟨.prisma, "shop.prisma"⟩, ⟨.json, "c.json"⟩] }

theorem oneToFormat_afterCalls_paired :
    (∀ done, done <+: pairedCalls → ∀ e ∈ (afterCalls done
      ({ path := ⟨.here, ["s.json"]⟩ }, .bare)).1.entries, e.OneToFormat) ∧
    (afterCalls pairedCalls ({ path := ⟨.here, ["s.json"]⟩ }, .bare)).1.entries = [reboundEntry] ∧
    pairedEntry.bind .json "c.json" = .ok reboundEntry ∧
    ∃ report u, Sync.database {} Sync.noTables reboundEntry .bare = .ok report u ∧
      ∀ transfer ∈ report.writes, transfer.format = .json → transfer.path = "c.json" := by
  have hone : pairedEntry.OneToFormat := by decide
  have htaken : ∀ c ∈ pairedCalls, ∀ s, ∀ e ∈ c.taken s, e.OneToFormat := by
    intro c hc s e he
    simp only [pairedCalls, List.mem_cons, List.not_mem_nil, or_false] at hc
    rcases hc with rfl | rfl | rfl
    · rw [Call.taken] at he
      split at he
      · rw [List.mem_singleton.1 he]
        exact hone
      · exact absurd he List.not_mem_nil
    · exact absurd he List.not_mem_nil
    · exact absurd he List.not_mem_nil
  have hsome : (Sync.transfersOf (·.writes)
      (Sync.database {} Sync.noTables reboundEntry .bare)).toOption.isSome := by
    decide +kernel
  obtain ⟨hiff, hwrites⟩ := oneToFormat_afterCalls_iff ⟨.here, ["s.json"]⟩ .bare pairedCalls
  obtain ⟨report, u, hrun⟩ := Sync.exists_of_isSome_transfersOf hsome
  refine ⟨hiff.2 fun done c hdone => htaken c (hdone.subset (by simp)) _, by decide +kernel, rfl, report, u,
    hrun, ?_⟩
  exact (hwrites pairedEntry reboundEntry .json "c.json" {} Sync.noTables {} .bare u report rfl rfl
    hrun).2 hone

/-- An entry with two files of one format. -/
def doubledEntry : DatabaseEntry where
  name := "shop"
  url := "u"
  mappings := [⟨.json, "a.json"⟩, ⟨.json, "b.json"⟩]

/-- The text of a registry file with that entry. -/
def doubledText : List Char :=
  "[\x7b\"name\":\"shop\",\"db_url\":\"u\",\"disk_mappings\":[".toList ++
    "\x7b\"format\":\"json\",\"path\":\"a.json\"\x7d,".toList ++
    "\x7b\"format\":\"json\",\"path\":\"b.json\"\x7d]\x7d]".toList

/-- A workspace with that file, and nothing else. -/
def doubledDesk : Workspace :=
  { Workspace.bare with
    files := ⟨[(["home", "s.json"], .file (Text.encode doubledText))], ["home"]⟩ }

/-- The file is read without a fault and its entry is taken in as it is; and when a file was bound to the format,
synchronising the entry still writes another one of it. -/
theorem oneToFormat_doubledDesk_ne : ∃ s e report u,
    Registry.load ({ path := ⟨.here, ["s.json"]⟩ }, doubledDesk) = .ok () s ∧
    s.1.entries = [doubledEntry] ∧ ¬doubledEntry.OneToFormat ∧
    doubledEntry.bind .json "c.json" = .ok e ∧
    Sync.database {} Sync.noTables e s.2 = .ok report u ∧
    report.writes.map (fun transfer => (transfer.format, transfer.path)) =
      [(.json, "c.json"), (.json, "b.json")] := by
  have hread : doubledDesk.files.read ⟨.here, ["s.json"]⟩ = .ok doubledText :=
    FileTree.read_of_bytes rfl (by decide +kernel)
  have hitems : itemsOf ⟨.here, ["s.json"]⟩ doubledText = .ok [doubledEntry.toJson] := by cbv
  have hadd : addItems { path := ⟨.here, ["s.json"]⟩ } [doubledEntry.toJson] =
      ({ path := ⟨.here, ["s.json"]⟩, entries := [doubledEntry] }, .ok ()) := rfl
  obtain ⟨bytes, hprobe⟩ := FileTree.probe_of_read hread
  obtain ⟨v, hfiles, hload⟩ := exists_load { path := ⟨.here, ["s.json"]⟩ } doubledDesk
  simp only [hprobe, hread, hitems, hadd] at hload
  obtain ⟨e, hbind, hmappings⟩ : ∃ e, doubledEntry.bind .json "c.json" = .ok e ∧
      e.mappings = [⟨.json, "c.json"⟩, ⟨.json, "b.json"⟩] := ⟨_, rfl, rfl⟩
  have hwritten : ((Sync.inTurn (Sync.writtenFor {} []) [⟨.json, "c.json"⟩, ⟨.json, "b.json"⟩]
      doubledDesk.files).2.map (·.map fun transfer => (transfer.format, transfer.path))).toOption =
        some [(.json, "c.json"), (.json, "b.json")] := by
    decide +kernel
  have hfound : (Sync.noTables e.url).result = .ok {} := rfl
  obtain ⟨hrun, -⟩ := Sync.database_of_found hfound {} v
  rw [hmappings, hfiles] at hrun
  cases htransfers : (Sync.inTurn (Sync.writtenFor {} []) [⟨.json, "c.json"⟩, ⟨.json, "b.json"⟩]
      doubledDesk.files).2 with
  | error fault =>
    rw [htransfers] at hwritten
    cases hwritten
  | ok transfers =>
    rw [htransfers] at hrun hwritten
    obtain ⟨report, u, hreport, hwrites⟩ := Sync.transfersOf_eq_ok_iff.1 hrun
    refine ⟨_, e, report, u, hload, rfl, by decide, hbind, hreport, ?_⟩
    rw [hwrites]
    exact Option.some.inj hwritten

end

end Registry

end CatalogSync
