import CatalogSync.Output.Binding
import CatalogSync.Proofs.Files.Tree
import CatalogSync.Proofs.Json.RoundTrip
import CatalogSync.Proofs.Workspace

/-!
Files that are bound to a format. A JSON file that was written holds the text of its content, and a
binding that has read nothing yet reads that content back from it.
-/

namespace CatalogSync

namespace Json

/-! ### The content of a JSON file -/

theorem names_put (members : List (LooseText × Json)) (name : LooseText) (value : Json) :
    (put members name value).map (·.1) =
      if name ∈ members.map (·.1) then members.map (·.1) else members.map (·.1) ++ [name] := by
  induction members with
  | nil => rfl
  | cons n members ih =>
    rw [put]
    by_cases hname : n.1 = name
    · simp [hname]
    · have hne : name ≠ n.1 := fun h => hname h.symm
      simp only [hname, if_false, List.map_cons, ih, List.mem_cons, hne, false_or]
      split <;> rfl

/-- An object that is read from named values has each name once, and no other values. -/
theorem Plain.ofMembers {depth : Nat} {members : List (LooseText × Json)}
    (htext : ∀ m ∈ members, ∃ name, m.1 = .text name) (h : ∀ m ∈ members, Plain depth m.2) :
    Plain (depth + 1) (ofMembers members) := by
  have hnodup : ∀ known : List (LooseText × Json), (known.map (·.1)).Nodup →
      ((members.foldl (fun known m => put known m.1 m.2) known).map (·.1)).Nodup := by
    clear htext h
    induction members with
    | nil => exact fun known hknown => hknown
    | cons n members ih =>
      intro known hknown
      refine ih _ ?_
      rw [names_put]
      split
      · exact hknown
      next hnew =>
        exact List.nodup_append.2 ⟨hknown, List.nodup_singleton _,
          fun a ha b hb hab => hnew (List.mem_singleton.1 hb ▸ hab ▸ ha)⟩
  have hgiven : ∀ m ∈ members.foldl (fun known m => put known m.1 m.2) [], m ∈ members :=
    fun m hm => (mem_of_mem_foldl_put hm).resolve_left List.not_mem_nil
  exact .obj (hnodup [] List.nodup_nil) (fun m hm => htext m (hgiven m hm))
    fun m hm => h m (hgiven m hm)

/-- The descriptions of tables are a plain value, whatever the texts in the tables are. -/
theorem plain_ofTables (tables : List Table) : Plain 3 (ofTables tables) := by
  have htable : ∀ t : Table, Plain 1 t.toDescriptions := by
    intro t
    refine Plain.ofMembers ?_ ?_
    · simp only [List.forall_mem_map]
      exact fun c _ => ⟨c.field, rfl⟩
    · simp only [List.forall_mem_map]
      exact fun c _ => .str 0 c.describe
  have htables : Plain 2 (ofMembers (tables.map fun t => (.text t.name, t.toDescriptions))) := by
    refine Plain.ofMembers ?_ ?_
    · simp only [List.forall_mem_map]
      exact fun t _ => ⟨t.name, rfl⟩
    · simp only [List.forall_mem_map]
      exact fun t _ => htable t
  refine .obj (List.nodup_singleton _) ?_ ?_
  · exact fun m hm => ⟨"tables", by rw [List.mem_singleton.1 hm]⟩
  · exact fun m hm => by rw [List.mem_singleton.1 hm]; exact htables

end Json

/-- The content of a JSON file is read back from its text. -/
theorem Content.parse_render_ofTables [Room] (tables : List Table) :
    Content.parse .json (Json.render (Json.ofTables tables)) = .ok (some (Json.ofTables tables)) := by
  have hread := (Json.plain_ofTables tables).read_render (Nat.le_of_succ_le Room.json_ge)
  rw [Content.parse, hread]
  rfl

namespace Binding

variable {f : Format} {b : Binding f} {tables : List Table} {w u : Workspace} {transfer : Transfer}

/-! ### Writing and reading -/

section
variable {α : Type} {act : Act α}

theorem guarded_of_ok {a : α} (h : act w = .ok a u) (verb : String) :
    b.guarded verb act w = .ok (.inr a) u := by
  rw [guarded]
  simp only [tryCatch, tryCatchThe, MonadExceptOf.tryCatch, bind, EStateM.bind, EStateM.tryCatch, h]
  rfl

/-- What the system refuses is reported and noted, any other fault of a file goes on. -/
theorem guarded_of_error {e : FileFault} (h : act w = .error (.file e) u) (verb : String) :
    b.guarded verb act w =
      if (Fault.file e).isSystemFault then
        .ok (.inl (b.refused e.message)) (u.noting [⟨.error, Content.source,
          s!"Failed to {verb} {b.path.toString}: {e.message}"⟩])
      else .error (.file e) u := by
  rw [guarded]
  simp only [tryCatch, tryCatchThe, MonadExceptOf.tryCatch, bind, EStateM.bind, EStateM.tryCatch, h]
  cases e <;> rfl

end

/-- The transfer that comes of how the system ended a writing, where no fault goes on. -/
def transferOf (b : Binding f) : Except FileFault Nat → Except Fault Transfer
  | .ok n => .ok (b.done n)
  | .error e => if (Fault.file e).isSystemFault then .ok (b.refused e.message) else .error (.file e)

/-- What becomes of files when a binding is written, and the transfer that comes of it. -/
def written [Room] (b : Binding f) (tables : List Table) (t : FileTree) :
    FileTree × Except Fault Transfer :=
  let outcome := t.write b.path (Content.render (b.contentOf tables)) b.halves
  (outcome.1, b.transferOf outcome.2)

/-- What comes of writing is told by the files alone. -/
theorem write_apply [Room] (b : Binding f) (tables : List Table) (w : Workspace) :
    ∃ u, u.files = (b.written tables w.files).1 ∧
      b.write tables w = Act.ofExcept (b.written tables w.files).2 u := by
  rw [write]
  simp only [Act.note, bind_of_eq_ok (Act.notes_apply _ _)]
  generalize hnoted : (((w.noting _).noting _).noting _).noting _ = noted
  have hfiles : noted.files = w.files := by rw [← hnoted]; rfl
  rw [written, ← hfiles]
  rcases hwrite : noted.files.write b.path (Content.render (b.contentOf tables)) b.halves with
    ⟨files, e | n⟩
  · obtain ⟨u, hu, herror⟩ := Act.writeText_of_error hwrite
    have hguarded := guarded_of_error (b := b) herror "write"
    rw [transferOf]
    by_cases hsystem : (Fault.file e).isSystemFault
    · rw [if_pos hsystem] at hguarded ⊢
      rw [bind_of_eq_ok hguarded]
      exact ⟨u.noting _, hu, rfl⟩
    · rw [if_neg hsystem] at hguarded ⊢
      rw [bind_of_eq_error hguarded]
      exact ⟨u, hu, rfl⟩
  · obtain ⟨u, hu, hok⟩ := Act.writeText_of_write hwrite
    rw [bind_of_eq_ok (guarded_of_ok hok "write")]
    exact ⟨u, hu, rfl⟩

/-- Where the directory of a file cannot be made, the refusal of that is reported. -/
theorem written_of_prepared [Room] {t : FileTree} {code : OsCode} {q : Path}
    (h : (t.prepared b.path).2 = .error (.os code q)) (tables : List Table) :
    (b.written tables t).2 = .ok (b.refused (FileFault.os code q).message) := by
  rw [written, FileTree.write_eq]
  rcases hprepared : t.prepared b.path with ⟨made, e | _⟩ <;> rw [hprepared] at h <;> cases h
  rfl

/-- A transfer that went well tells the number of bytes that were written. -/
theorem write_of_success [Room] (h : b.write tables w = .ok transfer u) (hsuccess : transfer.success) :
    ∃ n, transfer = b.done n ∧
      w.files.write b.path (Content.render (b.contentOf tables)) b.halves = (u.files, .ok n) := by
  obtain ⟨v, hfiles, happly⟩ := b.write_apply tables w
  rw [happly, written] at h
  rw [written] at hfiles
  rcases hwrite : w.files.write b.path (Content.render (b.contentOf tables)) b.halves with
    ⟨files, e | n⟩
  · rw [hwrite, transferOf] at h
    dsimp only at h
    split at h
    · cases h
      cases hsuccess
    · cases h
  · rw [hwrite] at h hfiles
    cases h
    exact ⟨n, rfl, by rw [hfiles]⟩

/-- A binding that has read its file before does not look at it again. -/
theorem loadDisk_of_some [Room] {content : f.Content} (hdisk : b.disk = some content) :
    ∃ u, b.loadDisk w = .ok (b.done 0, b) u := by
  rw [loadDisk, if_pos (by rw [hdisk]; rfl), Act.note, bind_of_eq_ok (Act.notes_apply _ _)]
  exact ⟨_, rfl⟩

/-- Where the file of a binding that has read nothing yet cannot be read, a refusal of the system is
reported, and any other fault goes on. -/
theorem loadDisk_of_error [Room] {e : FileFault} (hdisk : b.disk = none)
    (hread : w.files.read b.path = .error e) : ∃ u, b.loadDisk w =
      if (Fault.file e).isSystemFault then .ok (b.refused e.message, b) u
      else .error (.file e) u := by
  have hguarded := guarded_of_error (b := b) (Act.readText_of_error hread) "read"
  rw [loadDisk, hdisk, if_neg (by simp)]
  by_cases hsystem : (Fault.file e).isSystemFault
  · rw [if_pos hsystem] at hguarded
    simp only [bind_of_eq_ok hguarded, if_pos hsystem]
    exact ⟨_, rfl⟩
  · rw [if_neg hsystem] at hguarded
    simp only [bind_of_eq_error hguarded, if_neg hsystem]
    exact ⟨_, rfl⟩

/-- A binding that has read nothing yet keeps what the text of its file holds. -/
theorem loadDisk_of_text [Room] {text : List Char} (hdisk : b.disk = none)
    (hread : w.files.read b.path = .ok text) :
    b.loadDisk w = match Content.parse f text with
      | .error e => .error e ((w.noting []).noting (Content.parseNotes b.path f text))
      | .ok content =>
        .ok (b.done 0, { b with disk := content })
          ((w.noting []).noting (Content.parseNotes b.path f text)) := by
  have hsame : { b with disk := none } = b := by rw [← hdisk]
  have hguarded := guarded_of_ok (b := b) (Act.readText_of_read hread) "read"
  rw [loadDisk, hdisk, if_neg (by simp), bind_of_eq_ok hguarded]
  simp only [bind_of_eq_ok (Act.notes_apply _ _)]
  rcases Content.parse f text with e | content | content
  · rfl
  · dsimp only
    rw [hsame]
    rfl
  · rfl

/-- A binding that has read nothing yet reads the content of its file. -/
theorem loadDisk_of_read [Room] {content : f.Content} {text : List Char} (hdisk : b.disk = none)
    (hread : w.files.read b.path = .ok text) (hparse : Content.parse f text = .ok (some content)) :
    ∃ u, b.loadDisk w = .ok (b.done 0, { b with disk := some content }) u ∧ u.files = w.files := by
  refine ⟨(w.noting []).noting (Content.parseNotes b.path f text), ?_, rfl⟩
  rw [loadDisk_of_text hdisk hread, hparse]

/-! ### JSON files -/

/-- A JSON file that was written has as many bytes as were told, which are those of the text of its
content. A binding that has read nothing yet reads this very content from it, so that the content of
the file and the one made from the same tables are shown by one text. -/
theorem loadDisk_of_write [Room] {b fresh : Binding .json} (hwrite : b.write tables w = .ok transfer u)
    (hsuccess : transfer.success) (hpath : fresh.path = b.path) (hdisk : fresh.disk = none) :
    (∃ bytes, u.files.bytes b.path = .ok bytes ∧ transfer.bytes = bytes.length ∧
      bytes = Text.encode (Json.render (Json.ofTables tables))) ∧
    ∃ loaded v, fresh.loadDisk u = .ok (fresh.done 0, loaded) v ∧ v.files = u.files ∧
      loaded.disk = some (Json.ofTables tables) ∧
      (loaded.loadDatabase tables).render =
        diskLabel.toList ++ "\n\n".toList ++ Json.render (Json.ofTables tables) ++ "\n\n".toList ++
        databaseLabel.toList ++ "\n\n".toList ++ Json.render (Json.ofTables tables) ++
          "\n\n".toList := by
  obtain ⟨n, rfl, hfiles⟩ := write_of_success hwrite hsuccess
  obtain ⟨-, hn, -⟩ := FileTree.write_eq_ok_iff.1 hfiles
  have hbytes : u.files.bytes b.path = .ok (Text.encode (Json.render (Json.ofTables tables))) :=
    FileTree.bytes_of_write hfiles
  have hread : u.files.read fresh.path = .ok (Json.render (Json.ofTables tables)) := by
    rw [hpath]
    exact FileTree.read_of_bytes hbytes ((Json.plain_ofTables tables).return_not_mem 0)
  obtain ⟨v, hload, hv⟩ := loadDisk_of_read hdisk hread (Content.parse_render_ofTables tables)
  refine ⟨⟨_, hbytes, hn, rfl⟩, _, v, hload, hv, rfl, ?_⟩
  simp [render, loadDatabase, labelled, Content.render, contentOf, Content.ofTables]

section
open scoped Room

/-- A JSON file that nothing was read from yet. -/
def libraryFile : Binding .json where
  path := ⟨.here, ["out", "library.json"]⟩

/-- Two tables of one name, and texts with quotes, tabs and ends of lines. -/
def libraryTables : List Table := [
  { name := "shelf \"A\""
    columns := [{ field := "row\\", sqlType := "int" }, { field := "höhe\r", sqlType := "a\r\n\tb" }] },
  { name := "empty", columns := [] },
  { name := "shelf \"A\"", columns := [{ field := "place", sqlType := "int", nullable := false }] }]

theorem loadDisk_of_write_library : ∃ transfer u loaded v,
    libraryFile.write libraryTables .bare = .ok transfer u ∧ transfer.success ∧
      libraryFile.loadDisk u = .ok (libraryFile.done 0, loaded) v ∧
      loaded.disk = some (Json.ofTables libraryTables) := by
  obtain ⟨transfer, u, hwrite, hsuccess⟩ : ∃ transfer u,
      libraryFile.write libraryTables .bare = .ok transfer u ∧ transfer.success :=
    ⟨_, _, rfl, rfl⟩
  obtain ⟨-, loaded, v, hload, -, hcontent, -⟩ := loadDisk_of_write hwrite hsuccess rfl rfl
  exact ⟨transfer, u, loaded, v, hwrite, hsuccess, hload, hcontent⟩

end

end Binding

end CatalogSync
