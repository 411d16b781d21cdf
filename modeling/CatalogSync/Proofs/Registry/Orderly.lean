import CatalogSync.Proofs.Registry.Basic

/-!
Registries as commands keep them: besides the addresses the names are distinct too, and of each format
an entry has at most one file. Such a registry and its file stay together, so that each command finds
what the one before it left.
-/

namespace CatalogSync

namespace DatabaseEntry

/-- The path of a format is set, in the place of the mapping that the format had or at the end, and no
other mapping changes. -/
def SetsPath (f : Format) (path : String) (old new : List DiskMapping) : Prop :=
  (∃ front m back, old = front ++ m :: back ∧ m.format = f ∧ new = front ++ ⟨f, path⟩ :: back) ∨
    (∀ m ∈ old, m.format ≠ f) ∧ new = old ++ [⟨f, path⟩]

theorem setsPath_rebind (f : Format) (path : String) (ms : List DiskMapping) :
    SetsPath f path ms (rebind f path ms) := by
  induction ms with
  | nil => exact .inr ⟨fun m hm => absurd hm List.not_mem_nil, rfl⟩
  | cons n ms ih =>
    rw [rebind]
    split
    next hn =>
      refine .inl ⟨[], n, ms, rfl, hn, ?_⟩
      rw [← hn]
      rfl
    next hn =>
      rcases ih with ⟨front, m, back, hms, hm, hnew⟩ | ⟨hall, hnew⟩
      · exact .inl ⟨n :: front, m, back, by rw [hms]; rfl, hm, by rw [hnew]; rfl⟩
      · exact .inr ⟨List.forall_mem_cons.2 ⟨hn, hall⟩, by rw [hnew]; rfl⟩

/-- Where each format has at most one file, it stays so. -/
theorem SetsPath.nodup {f : Format} {path : String} {old new : List DiskMapping}
    (h : SetsPath f path old new) (hold : (old.map (·.format)).Nodup) :
    (new.map (·.format)).Nodup := by
  rcases h with ⟨front, m, back, rfl, hm, rfl⟩ | ⟨hall, rfl⟩
  · rw [List.map_append, List.map_cons, hm] at hold
    rw [List.map_append, List.map_cons]
    exact hold
  · rw [List.map_append, List.nodup_append]
    refine ⟨hold, List.nodup_singleton _, fun a ha b hb hab => ?_⟩
    obtain ⟨m, hmem, rfl⟩ := List.mem_map.1 ha
    exact hall m hmem (hab.trans (List.mem_singleton.1 hb))

end DatabaseEntry

namespace Registry

variable {r : Registry} {e : DatabaseEntry} {w : Workspace}

/-- A consistent registry whose entries have names of their own, plain addresses, and at most one file
to a format. -/
structure Orderly (r : Registry) : Prop extends r.Consistent where
  names : (r.entries.map (·.name)).Nodup
  formats : ∀ e ∈ r.entries, (e.mappings.map (·.format)).Nodup
  plain : ∀ e ∈ r.entries, ∃ url, e.url = .text url

/-- The file at a path holds the values of entries, in their order. -/
def Decodes [Room] (files : FileTree) (path : Path) (es : List DatabaseEntry) : Prop :=
  ∃ text items, files.read path = .ok text ∧ itemsOf path text = .ok items ∧
    items.map DatabaseEntry.decoder = es.map .valid

theorem HeldBy.decodes [Room] {files : FileTree} (h : r.HeldBy files) (hr : r.Consistent) :
    Decodes files r.path r.entries := by
  refine ⟨_, _, h.read, h.itemsOf, ?_⟩
  rw [List.map_map, List.map_inj_left]
  exact fun e he => (hr.sound e he).decoder_toJson

/-- Nothing keeps the file of an orderly registry from being written. -/
theorem Orderly.halfFault? (h : r.Orderly) : r.halfFault? = none := by
  refine halfFault?_eq_none_iff.2 fun e he => ?_
  obtain ⟨url, hurl⟩ := h.plain e he
  rw [hurl, LooseText.isBroken_text]

theorem Orderly.push (h : r.Orderly) (he : e.Sound) (haccepts : r.accepts e = true)
    (hname : r.find? e.name = none) (hfiles : e.mappings = []) (hurl : ∃ url, e.url = .text url) :
    (r.push e).Orderly := by
  refine ⟨h.toConsistent.push he haccepts, ?_, ?_, ?_⟩
  · rw [Registry.push, List.map_append, List.nodup_append]
    refine ⟨h.names, List.nodup_singleton _, fun a ha b hb hab => ?_⟩
    obtain ⟨d, hd, rfl⟩ := List.mem_map.1 ha
    have hsame : d.name = e.name := hab.trans (List.mem_singleton.1 hb)
    exact List.find?_eq_none.1 hname d hd (by simpa using hsame)
  all_goals
    intro d hd
    rcases List.mem_append.1 hd with hd | hd
  · exact h.formats d hd
  · rw [List.mem_singleton.1 hd, hfiles]
    exact List.nodup_nil
  · exact h.plain d hd
  · rw [List.mem_singleton.1 hd]
    exact hurl

theorem Orderly.erase (h : r.Orderly) (name : String) : (r.erase name).Orderly where
  toConsistent := h.toConsistent.erase name
  names := (List.eraseP_sublist.map _).nodup h.names
  formats e he := h.formats e (List.eraseP_sublist.subset he)
  plain e he := h.plain e (List.eraseP_sublist.subset he)

/-- What binding a file to the entry of a name comes to. -/
theorem bind_apply {name : String} {d : DatabaseEntry} (h : r.find? name = some d) (f : Format)
    (path : LooseText) (w : Workspace) : Registry.bind name f path (r, w) = match d.bind f path with
      | .ok e => .ok (some e) (r.replace name e, w)
      | .error fault => .error fault (r, w) := by
  rw [Registry.bind, bind_of_eq_ok (current_apply r w), h]
  dsimp only
  have hstep := onWorkspace_ofExcept (d.bind f path) r w
  cases hd : d.bind f path with
  | error fault =>
    rw [hd] at hstep
    rw [bind_of_eq_error hstep]
  | ok e =>
    rw [hd] at hstep
    rw [bind_of_eq_ok hstep]
    rfl

theorem Orderly.swap {front back : List DatabaseEntry} {d : DatabaseEntry} {f : Format}
    {path : LooseText} (h : r.Orderly) (hentries : r.entries = front ++ d :: back)
    (hbind : d.bind f path = .ok e) : Orderly { r with entries := front ++ e :: back } := by
  have hd : d ∈ r.entries := by simp [hentries]
  have hsound := (h.sound d hd).bind hbind
  obtain ⟨p, rfl, -, he⟩ := DatabaseEntry.bind_eq_ok_iff.1 hbind
  have hmem : ∀ x ∈ front ++ e :: back, x ∈ r.entries ∨ x = e := by
    intro x hx
    rw [hentries]
    simp only [List.mem_append, List.mem_cons] at hx ⊢
    tauto
  refine ⟨h.toConsistent.swap hentries (by rw [he]) hsound, ?_, fun x hx => ?_, fun x hx => ?_⟩
  · have hnames := h.names
    rw [hentries, List.map_append, List.map_cons] at hnames
    rw [List.map_append, List.map_cons, he]
    exact hnames
  · rcases hmem x hx with hx | rfl
    · exact h.formats x hx
    · rw [he]
      exact (DatabaseEntry.setsPath_rebind f p d.mappings).nodup (h.formats d hd)
  · rcases hmem x hx with hx | rfl
    · exact h.plain x hx
    · rw [he]
      exact h.plain d hd

/-! ### The registry together with its file -/

/-- An orderly registry and its file, which can be written: it holds the registry, or is not there yet
and the registry is empty. -/
structure Kept [Room] (r : Registry) (files : FileTree) : Prop where
  orderly : r.Orderly
  writable : files.Writable r.path
  file : files.probe r.path = .ok none ∧ r.entries = [] ∨ r.HeldBy files

/-- A registry is read as it was kept. -/
theorem Kept.load [Room] (h : r.Kept w.files) :
    ∃ u, Registry.load ({ path := r.path }, w) = .ok () (r, u) ∧ u.files = w.files := by
  rcases h.file with ⟨hprobe, hentries⟩ | hheld
  · obtain ⟨u, hu, hload⟩ := exists_load { path := r.path } w
    simp only [hprobe] at hload
    rw [← hentries] at hload
    exact ⟨u, hload, hu⟩
  · exact hheld.load h.orderly.toConsistent []

/-- An orderly registry is written, and then kept. -/
theorem Orderly.save [Room] (h : r.Orderly) (hwritable : w.files.Writable r.path) :
    ∃ n u, Registry.save (r, w) = .ok n (r, u) ∧ r.HeldBy u.files ∧ r.Kept u.files := by
  obtain ⟨files, n, hwrite, hagain⟩ := hwritable.write (Json.render r.toJson)
  have htext : ∃ u, CatalogSync.Act.writeText r.path (Json.render r.toJson) r.halfFault? w = .ok n u ∧
      u.files = files := by
    rw [h.halfFault?, CatalogSync.Act.writeText, CatalogSync.Act.onFiles]
    simp only [hwrite]
    exact ⟨_, rfl, rfl⟩
  obtain ⟨u, htext, rfl⟩ := htext
  have hheld : r.HeldBy u.files := ⟨FileTree.bytes_of_write hwrite, h.halfFault?⟩
  refine ⟨n, u, ?_, hheld, h, hagain, .inr hheld⟩
  rw [save_apply, htext]

/-- An orderly registry is put in the place of another, and written. -/
theorem Orderly.replaced [Room] {r' : Registry} (h : r'.Orderly) (r : Registry)
    (hwritable : w.files.Writable r'.path) (ns : List Note) :
    ∃ u, (do
        Act.put r'
        let _ ← Registry.save
        Act.notes ns
        return true : Registry.Act Bool) (r, w) = .ok true (r', u) ∧
      r'.HeldBy u.files ∧ r'.Kept u.files := by
  obtain ⟨n, u, hsave, hheld, hkept⟩ := h.save hwritable
  refine ⟨u.noting ns, ?_, hheld, hkept⟩
  rw [bind_of_eq_ok (put_apply r r' w), bind_of_eq_ok hsave]
  rfl

theorem Kept.add [Room] (h : r.Kept w.files) (hpush : r.accepts e = true → (r.push e).Orderly) :
    (∃ u, Registry.add e (r, w) = .ok false (r, u) ∧ u.files = w.files) ∨
      ∃ u, Registry.add e (r, w) = .ok true (r.push e, u) ∧ (r.push e).HeldBy u.files ∧
        (r.push e).Kept u.files := by
  rw [Registry.add, bind_of_eq_ok (current_apply r w), bind_of_eq_ok (notes_apply _ r w)]
  cases haccepts : r.accepts e with
  | false => exact .inl ⟨_, rfl, rfl⟩
  | true =>
    have hwritable : (w.noting (r.acceptNotes e)).files.Writable (r.push e).path := h.writable
    exact .inr ((hpush haccepts).replaced r hwritable _)

/-- What was done to the files leaves a registry with its file, and the file as it was. -/
structure Spared [Room] (r : Registry) (before after : FileTree) : Prop where
  kept : r.Kept after
  bytes : after.bytes r.path = before.bytes r.path

/-- A registry stays with its file where the directory of the file is made, if that leaves what stands
at the path of the file. -/
theorem Kept.prepared [Room] {files : FileTree} (h : r.Kept files)
    (hsteady : (files.prepared r.path).1.bytes r.path = files.bytes r.path) :
    r.Spared files (files.prepared r.path).1 := by
  refine ⟨⟨h.orderly, h.writable.prepared, h.file.imp ?_ fun hheld => ?_⟩, hsteady⟩
  · rintro ⟨hprobe, hentries⟩
    refine ⟨h.writable.probe_prepared fun bytes hbytes => ?_, hentries⟩
    rw [hsteady] at hbytes
    rw [FileTree.probe_of_bytes hbytes] at hprobe
    cases hprobe
  · exact ⟨hsteady.trans hheld.bytes, hheld.halves⟩

theorem Kept.remove [Room] (h : r.Kept w.files) (name : String) :
    (r.find? name = none ∧ Registry.remove name (r, w) = .ok false (r, w)) ∨
      (r.find? name).isSome ∧ ∃ u, Registry.remove name (r, w) = .ok true (r.erase name, u) ∧
        (r.erase name).HeldBy u.files ∧ (r.erase name).Kept u.files := by
  rw [Registry.remove, bind_of_eq_ok (current_apply r w)]
  cases hfind : r.find? name with
  | none => exact .inl ⟨rfl, rfl⟩
  | some e =>
    have hwritable : w.files.Writable (r.erase name).path := h.writable
    exact .inr ⟨rfl, (h.orderly.erase name).replaced r hwritable _⟩

end Registry

end CatalogSync
