import CatalogSync.Proofs.Collect
import CatalogSync.Proofs.Sync.Basic

/-!
Files of one database do not disturb each other. Where no path goes on from another, each file is
written as if it were the only one of its database. Two things can differ: which directory of a path is
named where a name in it is too long, and that a fault raised for one file keeps the files after it from
being written.
-/

namespace CatalogSync

/-- Two transfers are the same, or the system refused both because a directory of the path has too long
a name, where each may name another path on the way. -/
def Transfer.Alike (p : Path) (a b : Transfer) : Prop :=
  a = b ∨ ¬p.parent.Fits ∧ a.success = false ∧ ∃ q q' : Path, q.Above p.parent ∧ q'.Above p.parent ∧
    a.error = some (FileFault.os .nameTooLong q).message ∧
    b = { a with error := some (FileFault.os .nameTooLong q').message }

theorem Binding.transferOf_alike {f : Format} {b : Binding f} {x y : Except FileFault Nat}
    {transfer : Transfer} (h : FileFault.Alike b.path.parent x y)
    (hx : b.transferOf x = .ok transfer) :
    ∃ transfer', b.transferOf y = .ok transfer' ∧ transfer.Alike b.path transfer' := by
  rcases h with rfl | ⟨hlong, q, q', hq, hq', rfl, rfl⟩
  · exact ⟨transfer, hx, .inl rfl⟩
  · cases hx
    exact ⟨_, rfl, .inr ⟨hlong, rfl, q, q', hq, hq', rfl, rfl⟩⟩

namespace Sync

variable {settings : Settings} {databases : Survey.Source} {tables : List Table}
  {files : List DiskMapping} {t u : FileTree} {places : List Location} {e : DatabaseEntry}
  {m : DiskMapping} {found : Introspection}

/-! ### One file after others -/

/-- A file written in a tree that was altered elsewhere turns out as in the tree before. -/
theorem writtenFor_alike [Room] {transfer : Transfer} (ht : t.Sound) (hm : m.target.Inside)
    (h : FileTree.Alters places t u)
    (happart : ∀ l ∈ places, ¬l <+: t.place m.target ∧ ¬t.place m.target <+: l)
    (halone : (writtenFor settings tables m t).2 = .ok transfer) :
    ∃ transfer', (writtenFor settings tables m u).2 = .ok transfer' ∧
      transfer.Alike m.target transfer' ∧
      FileTree.entry? (writtenFor settings tables m u).1 (t.place m.target) =
        FileTree.entry? (writtenFor settings tables m t).1 (t.place m.target) := by
  have hgrown : t.Grown u (t.place m.target.parent) :=
    h.grown fun l hl hway => (happart l hl).1 (hway.trans (t.place_parent_prefix m.target))
  have hentry := h.entry?_eq fun l hl => (happart l hl).2
  rcases hgrown.write ht hm (Path.normal_ofString m.path) h.sound h.here hentry
      (Content.render ((bindingOf settings m).contentOf tables)) (bindingOf settings m).halves with
    htoo | ⟨halike, hsame⟩
  · rw [writtenFor_snd, htoo] at halone
    cases halone
  · rw [writtenFor_snd] at halone ⊢
    have hpath : (bindingOf settings m).path = m.target := rfl
    rw [← hpath] at halike
    obtain ⟨transfer', htransfer', htransfers⟩ := Binding.transferOf_alike halike halone
    rw [writtenFor_fst, writtenFor_fst]
    exact ⟨transfer', htransfer', htransfers, hsame⟩

/-- What a file changes adds its place to those that were altered before. -/
theorem alters_andWritten [Room] (h : FileTree.Alters places t u) (hm : m.target.Inside)
    (settings : Settings) (tables : List Table) :
    FileTree.Alters (t.place m.target :: places) t (writtenFor settings tables m u).1 := by
  have hstep := alters_writtenFor h.sound hm settings tables
  rw [h.place_eq] at hstep
  exact (h.mono (List.subset_cons_self _ _)).trans (hstep.mono (by simp))

/-- Files that are apart from one stay away from its place as well. -/
theorem apart_cons (hapart : ∀ n ∈ files, m.target.Apart n.target)
    (hplaces : ∀ n ∈ files, ∀ l ∈ places, ¬l <+: t.place n.target ∧ ¬t.place n.target <+: l) :
    ∀ n ∈ files, ∀ l ∈ t.place m.target :: places,
      ¬l <+: t.place n.target ∧ ¬t.place n.target <+: l := by
  intro n hn
  rw [List.forall_mem_cons, t.place_prefix_iff, t.place_prefix_iff]
  exact ⟨hapart n hn, hplaces n hn⟩

/-! ### All files in turn -/

section
variable (ht : t.Sound) (h : FileTree.Alters places t u)
  (hinside : ∀ m ∈ files, m.target.Inside)
  (hplaces : ∀ m ∈ files, ∀ l ∈ places, ¬l <+: t.place m.target ∧ ¬t.place m.target <+: l)
  (hapart : files.Pairwise fun m n => m.target.Apart n.target)
include ht h hinside hplaces hapart

/-- Files that could each be written in the tree before can be written in turn. -/
theorem exists_inTurn [Room]
    (halone : ∀ m ∈ files, ∃ transfer, (writtenFor settings tables m t).2 = .ok transfer) :
    ∃ transfers, (inTurn (writtenFor settings tables) files u).2 = .ok transfers := by
  induction files generalizing u places with
  | nil => exact ⟨[], rfl⟩
  | cons m rest ih =>
    rw [List.pairwise_cons] at hapart
    rw [List.forall_mem_cons] at hinside hplaces halone
    obtain ⟨transfer, htransfer⟩ := halone.1
    obtain ⟨transfer', hfound, -⟩ := writtenFor_alike ht hinside.1 h hplaces.1 htransfer
    obtain ⟨transfers, hrest⟩ := ih (alters_andWritten h hinside.1 settings tables) hinside.2
      (apart_cons hapart.1 hplaces.2) hapart.2 halone.2
    rw [inTurn_of_ok hfound, hrest]
    exact ⟨_, rfl⟩

/-- Files that are written in turn turn out as each would in the tree before. -/
theorem inTurn_alike [Room] {transfers : List Transfer}
    (hwritten : (inTurn (writtenFor settings tables) files u).2 = .ok transfers) :
    List.Forall₂ (fun m transfer' => ∀ transfer,
        (writtenFor settings tables m t).2 = .ok transfer → transfer.Alike m.target transfer' ∧
          FileTree.entry? (inTurn (writtenFor settings tables) files u).1 (t.place m.target) =
            FileTree.entry? (writtenFor settings tables m t).1 (t.place m.target))
      files transfers := by
  induction files generalizing u places transfers with
  | nil =>
    cases hwritten
    exact .nil
  | cons m rest ih =>
    rw [List.pairwise_cons] at hapart
    rw [List.forall_mem_cons] at hinside hplaces
    have hfirst := alters_andWritten h hinside.1 settings tables
    cases hfound : (writtenFor settings tables m u).2 with
    | error fault =>
      rw [inTurn_of_error hfound] at hwritten
      cases hwritten
    | ok transfer' =>
      rw [inTurn_of_ok hfound] at hwritten ⊢
      cases hrest : (inTurn (writtenFor settings tables) rest
          (writtenFor settings tables m u).1).2 with
      | error fault =>
        rw [hrest] at hwritten
        cases hwritten
      | ok others =>
        rw [hrest] at hwritten
        cases hwritten
        -- The files after the first one leave its place alone.
        have hlater := alters_inTurn hfirst.sound hinside.2 settings tables
        simp only [hfirst.place_eq] at hlater
        have hkept := hlater.entry?_eq (List.forall_mem_map.2 fun n hn =>
          mt t.place_prefix_iff.1 (hapart.1 n hn).1)
        refine .cons (fun transfer htransfer => ?_) (ih hfirst hinside.2
          (apart_cons hapart.1 hplaces.2) hapart.2 hrest)
        obtain ⟨_, hsame, halike, hentry⟩ := writtenFor_alike ht hinside.1 h hplaces.1 htransfer
        cases hfound.symm.trans hsame
        exact ⟨halike, hkept.trans hentry⟩

end

/-! ### Runs -/

/-- How a run ends that ends with a report. -/
theorem exists_of_isSome_transfersOf {α : Type} {writes : α → List Transfer}
    {result : EStateM.Result Fault Workspace α} (h : (transfersOf writes result).toOption.isSome) :
    ∃ a u, result = .ok a u := by
  cases result with
  | ok a u => exact ⟨a, u, rfl⟩
  | error fault u => cases h

/-- The run over one file ends with the transfer of that file. -/
theorem writes_of_single [Room] {w v : Workspace} {single : SyncReport}
    (h : (databases e.url).result = .ok found)
    (hrun : database settings databases { e with mappings := [m] } w = .ok single v) :
    ∃ transfer, (writtenFor settings found.tables m w.files).2 = .ok transfer ∧
      single.writes = [transfer] ∧ v.files = (writtenFor settings found.tables m w.files).1 := by
  obtain ⟨htransfers, hfiles⟩ :=
    database_of_found (e := { e with mappings := [m] }) h settings w
  rw [hrun] at htransfers hfiles
  cases hwritten : (writtenFor settings found.tables m w.files).2 with
  | error fault =>
    rw [inTurn_of_error hwritten] at htransfers
    cases htransfers
  | ok transfer =>
    rw [inTurn_of_ok hwritten, inTurn_nil] at htransfers hfiles
    simp only [transfersOf, Except.map, Except.ok.injEq] at htransfers
    simp only [left] at hfiles
    exact ⟨transfer, rfl, htransfers, hfiles⟩

section
variable {w : Workspace} (hw : w.files.Sound) (hinside : ∀ m ∈ e.mappings, m.target.Inside)
  (hapart : e.mappings.Pairwise fun m n => m.target.Apart n.target)
  (h : (databases e.url).result = .ok found)
include hw hinside hapart h

/-- A run ends with a report where the run over each of its files does. -/
theorem exists_database [Room]
    (hruns : ∀ m ∈ e.mappings, ∃ single v,
      database settings databases { e with mappings := [m] } w = .ok single v) :
    ∃ report u, database settings databases e w = .ok report u := by
  have halone : ∀ m ∈ e.mappings, ∃ transfer,
      (writtenFor settings found.tables m w.files).2 = .ok transfer := by
    intro m hm
    obtain ⟨single, v, hrun⟩ := hruns m hm
    obtain ⟨transfer, hwritten, -⟩ := writes_of_single h hrun
    exact ⟨transfer, hwritten⟩
  have hunaltered : FileTree.Alters [] w.files w.files := FileTree.Alters.refl hw
  obtain ⟨transfers, hwritten⟩ := exists_inTurn hw hunaltered hinside
    (fun _ _ => List.forall_mem_nil _) hapart halone
  rw [← (database_of_found h settings w).1, transfersOf_eq_ok_iff] at hwritten
  obtain ⟨report, u, hrun, -⟩ := hwritten
  exact ⟨report, u, hrun⟩

/-- Each file of a run is written as in the run over it alone. -/
theorem database_alike [Room] {report : SyncReport} {u : Workspace}
    (hrun : database settings databases e w = .ok report u) :
    List.Forall₂ (fun m transfer => ∀ single v,
        database settings databases { e with mappings := [m] } w = .ok single v →
        ∃ alone, single.writes = [alone] ∧ alone.Alike m.target transfer ∧
          (u.files.status m.target).toOption = (v.files.status m.target).toOption)
      e.mappings report.writes := by
  obtain ⟨htransfers, hfiles⟩ := database_of_found h settings w
  have halters := alters_database hw hinside settings databases
  rw [hrun] at htransfers hfiles halters
  have hunaltered : FileTree.Alters [] w.files w.files := FileTree.Alters.refl hw
  have hturn := inTurn_alike hw hunaltered hinside
    (fun _ _ => List.forall_mem_nil _) hapart htransfers.symm
  rw [← hfiles] at hturn
  refine ((List.forall₂_and_left _ _).2 ⟨fun m hm => hm, hturn⟩).imp ?_
  intro m transfer ⟨hm, hsame⟩ single v hsingle
  obtain ⟨alone, halone, hwrites, hv⟩ := writes_of_single h hsingle
  obtain ⟨halike, hentry⟩ := hsame alone halone
  have hwrite := alters_writtenFor hw (hinside m hm) settings found.tables
  rw [← hv] at hwrite hentry
  rw [← hwrite.place_eq] at hentry
  exact ⟨alone, hwrites, halike, FileTree.toOption_status_eq hwrite.sound (hinside m hm)
    halters.sound (halters.here.trans hwrite.here.symm) hentry⟩

end

/-- Where no path of a database goes on from another, synchronising it writes no file elsewhere,
however it ends. It ends in a report where it does so for each file alone, and a file that is written
without a fault alone is then written alike among the others: the same is found at its path. Where the
database cannot be reached nothing is written. -/
theorem database_independent [Room] {w : Workspace} (hw : w.files.Sound)
    (hinside : ∀ m ∈ e.mappings, m.target.Inside)
    (hapart : e.mappings.Pairwise fun m n => m.target.Apart n.target) :
    (∀ l ∉ e.mappings.map (fun m => w.files.place m.target), ∀ bytes,
      FileTree.entry? (left (database settings databases e w)).files l = some (.file bytes) ↔
        w.files.entry? l = some (.file bytes)) ∧
    (∀ found, (databases e.url).result = .ok found →
      ((∀ m ∈ e.mappings, ∃ single v,
          database settings databases { e with mappings := [m] } w = .ok single v) →
        ∃ report u, database settings databases e w = .ok report u) ∧
      ∀ report u, database settings databases e w = .ok report u →
        List.Forall₂ (fun m transfer => ∀ single v,
            database settings databases { e with mappings := [m] } w = .ok single v →
            ∃ alone, single.writes = [alone] ∧ alone.Alike m.target transfer ∧
              (u.files.status m.target).toOption = (v.files.status m.target).toOption)
          e.mappings report.writes) ∧
    (∀ url reason, (databases e.url).result = .error (.connection url reason) →
      ∃ report u, database settings databases e w = .ok report u ∧
        report.writes = [] ∧ u.files = w.files) := by
  refine ⟨fun l hl bytes => (alters_database hw hinside settings databases).file_iff hl, ?_, ?_⟩
  · intro found hfound
    exact ⟨exists_database hw hinside hapart hfound,
      fun report u hrun => database_alike hw hinside hapart hfound hrun⟩
  · intro url reason hresult
    obtain ⟨elapsed, u, hu, happly⟩ := database_of_error hresult settings w
    exact ⟨_, u, happly, rfl, hu⟩

section
open scoped Room

/-- A database without tables. -/
def noTables : Survey.Source := fun _ => { result := .ok {}, events := [], notes := [] }

/-- A tree of nothing but the root, which relative paths start from. -/
def root : FileTree := ⟨[], []⟩

theorem sound_root : root.Sound where
  here := rfl
  above {l name e} h := by
    rw [FileTree.entry?, if_neg (by simp)] at h
    cases h

/-- Two files in one directory, and one under what is a file. -/
def shop : DatabaseEntry where
  name := "shop"
  url := "mysql://h/shop"
  mappings := [⟨.prisma, "out/schema.prisma"⟩, ⟨.json, "out/deep/tables.json"⟩,
    ⟨.json, "notes/tables.json"⟩]

/-- One file in the root, and a clock that stands still. -/
def blocked : Workspace where
  files := root.set ["notes"] (.file [104])
  clock := { tick := .zero }

theorem database_independent_shop : ∃ report u, database {} noTables shop blocked = .ok report u ∧
    report.writes.map (·.success) = [true, true, false] ∧
    u.files.entry? ["notes"] = some (.file [104]) ∧
    List.Forall₂ (fun m transfer => ∀ single v,
        database {} noTables { shop with mappings := [m] } blocked = .ok single v →
        ∃ alone, single.writes = [alone] ∧ alone.Alike m.target transfer ∧
          (u.files.status m.target).toOption = (v.files.status m.target).toOption)
      shop.mappings report.writes := by
  have hsound : blocked.files.Sound := sound_root.set (by decide) rfl (.file [104])
  have hinside : ∀ m ∈ shop.mappings, m.target.Inside := by decide
  have hapart : shop.mappings.Pairwise fun m n => m.target.Apart n.target := by decide
  obtain ⟨hframe, hfound, -⟩ := @database_independent {} noTables shop _ blocked hsound hinside hapart
  obtain ⟨hends, halike⟩ := hfound {} rfl
  have hsingle : ∀ m ∈ shop.mappings, (transfersOf (·.writes)
      (database {} noTables { shop with mappings := [m] } blocked)).toOption.isSome := by
    decide +kernel
  have hwrites : (transfersOf (·.writes) (database {} noTables shop blocked)).toOption.map
      (·.map (·.success)) = some [true, true, false] := by
    decide +kernel
  obtain ⟨report, u, hrun⟩ := hends fun m hm => exists_of_isSome_transfersOf (hsingle m hm)
  have hnotes := (hframe ["notes"] (by decide) [104]).2 rfl
  rw [hrun] at hwrites hnotes
  exact ⟨report, u, hrun, Option.some.inj hwrites, hnotes, halike report u hrun⟩

/-! ### What can differ -/

/-- A name one byte longer than the system takes. -/
def longName : String := String.ofList (List.replicate 256 'x')

/-- A file under a directory with too long a name. -/
def deepFile : DiskMapping := ⟨.json, "a/" ++ longName ++ "/c/y.json"⟩

/-- The directory that the file would have. -/
def deepPath : Path := ⟨.here, ["a", longName, "c"]⟩

theorem toList_longName : longName.toList = List.replicate 256 'x' := String.toList_ofList

theorem target_deepFile : deepFile.target = ⟨.here, ["a", longName, "c", "y.json"]⟩ := by
  have hchars : ("a/" ++ longName ++ "/c/y.json").toList =
      "a/".toList ++ List.replicate 256 'x' ++ "/c/y.json".toList := by
    rw [String.toList_append, String.toList_append, toList_longName]
  rw [DiskMapping.target, deepFile, Path.ofString, hchars]
  decide +kernel

theorem inside_deepFile : deepFile.target.Inside := by
  have hname : Char.ofNat 0 ∉ longName.toList := by
    rw [toList_longName, List.mem_replicate]
    decide
  rw [target_deepFile]
  refine ⟨rfl, by decide +kernel, ?_⟩
  rw [Path.hasNul, List.any_eq_false]
  simp only [List.forall_mem_cons, List.contains_iff_mem]
  exact ⟨by decide, hname, by decide, by decide, List.forall_mem_nil _⟩

theorem inside_deepPath : deepPath.Inside := by
  have h := inside_deepFile.parent
  rw [target_deepFile] at h
  exact h

/-- Where nothing is there, the first directory is made and the next is refused. -/
theorem makeDirectory_root :
    (root.makeDirectory deepPath).2 = .error (.os .nameTooLong deepPath.parent) := by
  have hnone : root.locate deepPath = .error .noEntry := by
    rw [FileTree.locate, if_neg (by decide +kernel)]
    rfl
  have hnone' : root.locate deepPath.parent = .error .noEntry := by
    rw [FileTree.locate, if_neg (by decide +kernel)]
    rfl
  have hfirst : (root.makeLevels deepPath.parent.parent 978).2 = .ok () := by
    rw [FileTree.makeLevels_snd_of_ne inside_deepPath.parent.parent (by decide)]
    rfl
  have hlong : FileTree.maxName < deepPath.parent.name.utf8ByteSize := by decide +kernel
  have hroom : Room.directories = 978 + 2 := rfl
  rw [FileTree.makeDirectory, hroom, FileTree.makeLevels_snd_of_noEntry sound_root inside_deepPath hnone,
    FileTree.makeLevels_snd_of_noEntry sound_root inside_deepPath.parent hnone', hfirst]
  dsimp only [bind, Except.bind]
  rw [if_pos hlong]

/-- Where the first directory is there, the whole path is refused. -/
theorem makeDirectory_of_directory (hhere : t.here = [])
    (ha : t.entry? ["a"] = some .directory) :
    (t.makeDirectory deepPath).2 = .error (.os .nameTooLong deepPath) := by
  have hlong : FileTree.step ["a"] longName = .error .nameTooLong := by
    rw [FileTree.step, if_neg (by decide +kernel), if_pos (by decide +kernel)]
  have hlocate : t.locate deepPath = .error .nameTooLong := by
    have hfirst : FileTree.step [] "a" = .ok ["a"] := rfl
    rw [FileTree.locate, if_neg (by decide +kernel), if_pos (by rfl), hhere]
    simp only [deepPath, FileTree.follow, hfirst, bind, Except.bind, ha, hlong]
  have hroom : Room.directories = 979 + 1 := rfl
  rw [FileTree.makeDirectory, hroom,
    FileTree.makeLevels_snd_of_ne inside_deepPath (by rw [hlocate]; rintro ⟨⟩), hlocate]

theorem quotedString_ofList (s : List Char) :
    Text.quotedString (String.ofList s) = String.ofList (Text.quoted s) := by
  rw [Text.quotedString, String.toList_ofList]

/-- Refusals for one cause name paths that are shown alike where they are worded alike. -/
theorem quotedString_of_message {code : OsCode} {q q' : Path}
    (h : (FileFault.os code q).message = (FileFault.os code q').message) :
    Text.quotedString q.toString = Text.quotedString q'.toString :=
  (String.append_right_inj _).1 h

theorem message_deepPath_ne : (FileFault.os .nameTooLong deepPath).message ≠
    (FileFault.os .nameTooLong deepPath.parent).message := by
  have htext : deepPath.toString =
      String.ofList ("a/".toList ++ List.replicate 256 'x' ++ "/c".toList) := by decide +kernel
  have htext' : deepPath.parent.toString =
      String.ofList ("a/".toList ++ List.replicate 256 'x') := by decide +kernel
  intro h
  have hquoted := quotedString_of_message h
  rw [htext, htext', quotedString_ofList, quotedString_ofList] at hquoted
  exact absurd (String.ofList_injective hquoted) (by decide +kernel)

theorem writtenFor_deepFile {q : Path}
    (h : (t.makeDirectory deepPath).2 = .error (.os .nameTooLong q)) :
    (writtenFor {} [] deepFile t).2 =
      .ok ((bindingOf {} deepFile).refused (FileFault.os .nameTooLong q).message) := by
  have hpath : (bindingOf {} deepFile).path = ⟨.here, ["a", longName, "c", "y.json"]⟩ :=
    target_deepFile
  refine Binding.written_of_prepared ?_ []
  rw [FileTree.prepared, hpath, if_pos (by decide)]
  exact h

/-- A file in the directory that the other file has to have made. -/
def schemaFile : DiskMapping := ⟨.prisma, "a/s.prisma"⟩

/-- Two files with one directory on the way to both. -/
def crossed : DatabaseEntry where
  name := "shop"
  url := "mysql://h/shop"
  mappings := [schemaFile, deepFile]

/-- Settings whose schema files cannot be encoded. -/
def halved : Settings := { generatorProvider := .broken [0xD800] (by decide) }

/-- Two files side by side. -/
def pair : DatabaseEntry where
  name := "shop"
  url := "mysql://h/shop"
  mappings := [⟨.prisma, "s.prisma"⟩, ⟨.json, "y.json"⟩]

/-- No files, and a clock that stands still. -/
def begun : Workspace := { files := root, clock := { tick := .zero } }

/-- Among the others, the file is refused with its whole directory. -/
theorem transfers_crossed : transfersOf (·.writes) (database {} noTables crossed begun) =
    .ok [(bindingOf {} schemaFile).done 127,
      (bindingOf {} deepFile).refused (FileFault.os .nameTooLong deepPath).message] := by
  have hfirst : (writtenFor {} [] schemaFile root).2 = .ok ((bindingOf {} schemaFile).done 127) :=
    eq_ok_of_mem_toOption (by decide +kernel)
  have hentry : FileTree.entry? (writtenFor {} [] schemaFile root).1 ["a"] = some .directory := by
    decide +kernel
  have hmade := alters_writtenFor sound_root (m := schemaFile) (by decide) {} []
  have hsecond := writtenFor_deepFile (makeDirectory_of_directory hmade.here hentry)
  rw [(@database_of_found noTables crossed {} _ rfl {} begun).1, crossed, begun, inTurn_of_ok hfirst,
    inTurn_of_ok hsecond, inTurn_nil]
  simp only [Except.map]

/-- Alone, the file is refused with the directory above. -/
theorem transfers_deepFile :
    transfersOf (·.writes) (database {} noTables { crossed with mappings := [deepFile] } begun) =
      .ok [(bindingOf {} deepFile).refused
        (FileFault.os .nameTooLong deepPath.parent).message] := by
  have hfirst := writtenFor_deepFile makeDirectory_root
  rw [(@database_of_found noTables { crossed with mappings := [deepFile] } {} _ rfl {} begun).1, begun,
    inTurn_of_ok hfirst, inTurn_nil]
  simp only [Except.map]

/-- A file among others is not always written as alone: the refusal of a name that is too long may name
another directory, and where one file cannot be encoded another may be left unwritten. -/
theorem database_dependent :
    ((∀ m ∈ crossed.mappings, m.target.Inside) ∧
      (crossed.mappings.Pairwise fun m n => m.target.Apart n.target) ∧
      ∃ first among alone, among ≠ alone ∧
        transfersOf (·.writes) (database {} noTables crossed begun) = .ok [first, among] ∧
        transfersOf (·.writes) (database {} noTables { crossed with mappings := [deepFile] } begun) =
          .ok [alone]) ∧
    ((∀ m ∈ pair.mappings, m.target.Inside) ∧
      (pair.mappings.Pairwise fun m n => m.target.Apart n.target) ∧
      (transfersOf (·.writes) (database halved noTables pair begun)).toOption = none ∧
      (transfersOf (·.writes)
        (database halved noTables { pair with mappings := [⟨.json, "y.json"⟩] } begun)).toOption =
          some [{ success := true, format := .json, path := "y.json", bytes := 18 }]) := by
  refine ⟨⟨?_, ?_, _, _, _, ?_, transfers_crossed, transfers_deepFile⟩, ?_, ?_, ?_, ?_⟩
  · exact List.forall_mem_cons.2 ⟨by decide, List.forall_mem_singleton.2 inside_deepFile⟩
  · rw [crossed, List.pairwise_pair, target_deepFile]
    decide +kernel
  · intro h
    rw [Binding.refused, Binding.refused, Transfer.mk.injEq] at h
    exact message_deepPath_ne (Option.some.inj h.2.2.2.1)
  · decide
  · decide
  · decide
  · decide

end

end Sync

end CatalogSync
