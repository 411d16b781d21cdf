import CatalogSync.Files.Tree
import CatalogSync.Proofs.Text.Utf8

/-!
What operations do to a tree of files. Giving a place something to hold changes no other place, and a
tree that keeps its directories keeps where its paths lead, so that a file which was written holds
just what was written to it.
-/

namespace CatalogSync

namespace FileTree

variable {t u : FileTree} {l k : Location} {p : Path}

/-! ### Places -/

theorem entry?_nil (t : FileTree) : t.entry? [] = some .directory := if_pos rfl

theorem entry?_set_self (t : FileTree) (h : l ≠ []) (e : Entry) : entry? (t.set l e) l = some e := by
  unfold entry? set
  simp [h]

theorem entry?_set_of_ne (t : FileTree) (h : k ≠ l) (e : Entry) :
    entry? (t.set l e) k = t.entry? k := by
  have hfind : ∀ entries : List (Location × Entry),
      (entries.filter (·.1 ≠ l)).find? (·.1 = k) = entries.find? (·.1 = k) := by
    intro entries
    rw [List.find?_filter]
    congr 1
    funext x
    by_cases hx : x.1 = k <;> simp [hx, h]
  unfold entry? set
  rw [List.find?_cons_of_neg (by simpa using h.symm), hfind]

@[simp]
theorem here_set (t : FileTree) (l : Location) (e : Entry) : (t.set l e).here = t.here := rfl

/-- A tree has all the directories of another, and relative paths start from the same place. -/
structure Keeps (t u : FileTree) : Prop where
  here : u.here = t.here
  directory : ∀ l, t.entry? l = some .directory → u.entry? l = some .directory

theorem Keeps.refl (t : FileTree) : t.Keeps t := ⟨rfl, fun _ h => h⟩

theorem Keeps.trans {v : FileTree} (h : t.Keeps u) (h' : u.Keeps v) : t.Keeps v :=
  ⟨h'.here.trans h.here, fun l hl => h'.directory l (h.directory l hl)⟩

/-- A place that was no directory may be given anything. -/
theorem keeps_set (h : t.entry? l ≠ some .directory) (e : Entry) : t.Keeps (t.set l e) := by
  refine ⟨rfl, fun k hk => ?_⟩
  have hne : k ≠ l := fun heq => h (heq ▸ hk)
  rw [entry?_set_of_ne t hne, hk]

theorem Keeps.follow (h : t.Keeps u) {parts : List String} (hl : t.follow l parts = .ok k) :
    u.follow l parts = .ok k := by
  induction parts generalizing l with
  | nil => exact hl
  | cons part rest ih =>
    cases rest with
    | nil => exact hl
    | cons next rest =>
      rw [FileTree.follow] at hl ⊢
      cases hstep : step l part with
      | error code => rw [hstep] at hl; cases hl
      | ok m =>
        rw [hstep] at hl
        cases hentry : t.entry? m with
        | none => simp only [bind, Except.bind, hentry] at hl; cases hl
        | some e =>
          cases e with
          | file bytes => simp only [bind, Except.bind, hentry] at hl; cases hl
          | directory =>
            simp only [bind, Except.bind, hentry, h.directory m hentry] at hl ⊢
            exact ih hl

theorem Keeps.locate (h : t.Keeps u) (hl : t.locate p = .ok l) : u.locate p = .ok l := by
  rw [FileTree.locate] at hl ⊢
  split at hl
  · cases hl
  · rw [if_neg (by assumption), h.here]
    exact h.follow hl

theorem status_eq_ok_iff {e : Entry} :
    t.status p = .ok e ↔ ∃ l, t.locate p = .ok l ∧ t.entry? l = some e := by
  rw [status]
  cases hlocate : t.locate p with
  | error code => simp [bind, Except.bind]
  | ok l => cases hentry : t.entry? l <;> simp [bind, Except.bind, hentry]

/-! ### Files -/

theorem bytes_eq_ok_iff {bytes : List UInt8} : t.bytes p = .ok bytes ↔
    p.hasNul = false ∧ ∃ l, t.locate p = .ok l ∧ t.entry? l = some (.file bytes) := by
  rw [FileTree.bytes]
  cases hnul : p.hasNul with
  | true => simp
  | false =>
    rw [if_neg Bool.false_ne_true, status]
    cases hlocate : t.locate p with
    | error code => simp [bind, Except.bind]
    | ok l =>
      cases hentry : t.entry? l with
      | none => simp [bind, Except.bind, hentry]
      | some e => cases e <;> simp [bind, Except.bind, hentry]

theorem put_eq_ok_iff {bytes : List UInt8} : t.put p bytes = (u, .ok ()) ↔
    p.hasNul = false ∧ ∃ l, t.locate p = .ok l ∧ t.entry? l ≠ some .directory ∧
      u = t.set l (.file bytes) := by
  rw [put]
  cases hnul : p.hasNul with
  | true => simp
  | false =>
    rw [if_neg Bool.false_ne_true]
    cases hlocate : t.locate p with
    | error code => simp
    | ok l =>
      cases hentry : t.entry? l with
      | none => simp [hentry, eq_comm]
      | some e => cases e <;> simp [hentry, eq_comm]

/-- A file holds what was put at its path. -/
theorem bytes_of_put {bytes : List UInt8} (h : t.put p bytes = (u, .ok ())) :
    u.bytes p = .ok bytes := by
  obtain ⟨hnul, l, hlocate, hentry, rfl⟩ := put_eq_ok_iff.1 h
  have hl : l ≠ [] := by
    rintro rfl
    exact hentry (entry?_nil t)
  exact bytes_eq_ok_iff.2 ⟨hnul, l, (keeps_set hentry _).locate hlocate, entry?_set_self t hl _⟩

/-- The tree in which a file is put when it is written, where its directory can be made. -/
def prepared [Room] (t : FileTree) (p : Path) : FileTree × Except FileFault Unit :=
  if needsDirectory p then t.makeDirectory p.parent else (t, .ok ())

/-- A text is written in two steps: its directory is made, and its bytes are put there. -/
theorem write_eq [Room] (t : FileTree) (p : Path) (content : List Char) (halves : Option Text.HalfFault) :
    t.write p content halves = match t.prepared p with
      | (t, .error e) => (t, .error e)
      | (t, .ok ()) => match halves with
        | some fault => (t, .error (.notEncodable fault))
        | none => match t.put p (Text.encode content) with
          | (t, .error e) => (t, .error e)
          | (t, .ok ()) => (t, .ok (Text.encode content).length) := rfl

theorem write_eq_ok_iff [Room] {content : List Char} {halves : Option Text.HalfFault} {n : Nat} :
    t.write p content halves = (u, .ok n) ↔ halves = none ∧ n = (Text.encode content).length ∧
      ∃ made, t.prepared p = (made, .ok ()) ∧
        made.put p (Text.encode content) = (u, .ok ()) := by
  rw [write_eq]
  rcases t.prepared p with ⟨made, e | _⟩
  · simp
  · cases halves with
    | some fault => simp
    | none =>
      simp only [true_and, Prod.mk.injEq, and_true, exists_eq_left']
      rcases made.put p (Text.encode content) with ⟨left, e | _⟩
      · simp
      · simp only [Prod.mk.injEq, Except.ok.injEq, and_true, eq_comm]
        exact and_comm

/-- A file holds the bytes of the text that was written to it. -/
theorem bytes_of_write [Room] {content : List Char} {halves : Option Text.HalfFault} {n : Nat}
    (h : t.write p content halves = (u, .ok n)) : u.bytes p = .ok (Text.encode content) := by
  obtain ⟨-, -, made, -, hput⟩ := write_eq_ok_iff.1 h
  exact bytes_of_put hput

/-- A text without carriage returns is read back from the file that holds its bytes. -/
theorem read_of_bytes {content : List Char} (h : t.bytes p = .ok (Text.encode content))
    (hreturn : '\r' ∉ content) : t.read p = .ok content := by
  rw [read, h]
  simp only [bind, Except.bind, Text.decode_encode, Text.unifyBreaks_eq_self hreturn]

/-- Something stands where a file is read. -/
theorem probe_of_bytes {bytes : List UInt8} (h : t.bytes p = .ok bytes) :
    t.probe p = .ok (some (.file bytes)) := by
  obtain ⟨hnul, l, hlocate, hentry⟩ := bytes_eq_ok_iff.1 h
  rw [probe, if_neg (by simp [hnul]), status, hlocate]
  simp only [bind, Except.bind, hentry]

/-- A file that is there has bytes. -/
theorem bytes_of_probe {bytes : List UInt8} (h : t.probe p = .ok (some (.file bytes))) :
    t.bytes p = .ok bytes := by
  rw [probe] at h
  rw [FileTree.bytes]
  split at h
  · cases h
  next hnul =>
    rw [if_neg hnul]
    split at h
    next hstatus =>
      cases h
      rw [hstatus]
    · cases h
    · cases h

/-- The text of a file that is there fails to be had only where its bytes are no text. -/
theorem read_cases_of_probe {bytes : List UInt8} (h : t.probe p = .ok (some (.file bytes))) :
    (∃ text, t.read p = .ok text) ∨ ∃ fault, t.read p = .error (.notUtf8 fault) := by
  rw [read, bytes_of_probe h]
  simp only [bind, Except.bind]
  cases Text.decode bytes with
  | ok s => exact .inl ⟨_, rfl⟩
  | error fault => exact .inr ⟨fault, rfl⟩

/-- A path of a file that can be read has an answer. -/
theorem probe_of_read {text : List Char} (h : t.read p = .ok text) :
    ∃ bytes, t.probe p = .ok (some (.file bytes)) := by
  rw [read] at h
  cases hbytes : t.bytes p with
  | error e =>
    rw [hbytes] at h
    cases h
  | ok bytes => exact ⟨bytes, probe_of_bytes hbytes⟩

/-- What may be against reading a file: the system, the null character, and bytes that are no text. -/
theorem cases_of_read_error {e : FileFault} (h : t.read p = .error e) :
    (∃ code, e = .os code p) ∨ e = .nullCharacter ∨ ∃ fault, e = .notUtf8 fault := by
  rw [read] at h
  cases hbytes : t.bytes p with
  | ok bytes =>
    rw [hbytes] at h
    simp only [bind, Except.bind] at h
    split at h <;> cases h
    exact .inr (.inr ⟨_, rfl⟩)
  | error e' =>
    rw [hbytes] at h
    cases h
    rw [FileTree.bytes] at hbytes
    split at hbytes
    · cases hbytes
      exact .inr (.inl rfl)
    · split at hbytes <;> cases hbytes
      · exact .inl ⟨_, rfl⟩
      · exact .inl ⟨_, rfl⟩

/-- A path has no answer only where the system finds a name too long. -/
theorem eq_of_probe_error {e : FileFault} (h : t.probe p = .error e) : e = .os .nameTooLong p := by
  rw [probe] at h
  split at h
  · cases h
  · split at h <;> cases h
    rfl

/-! ### Directories -/

theorem isDirectory_iff : t.isDirectory p = true ↔
    p.hasNul = false ∧ ∃ l, t.locate p = .ok l ∧ t.entry? l = some .directory := by
  rw [isDirectory, status]
  cases hlocate : t.locate p with
  | error code => simp [bind, Except.bind]
  | ok l =>
    cases hentry : t.entry? l with
    | none => simp [bind, Except.bind, hentry]
    | some e => cases e <;> simp [bind, Except.bind, hentry]

theorem Keeps.isDirectory (h : t.Keeps u) (hp : t.isDirectory p = true) : u.isDirectory p = true := by
  obtain ⟨hnul, l, hlocate, hentry⟩ := isDirectory_iff.1 hp
  exact isDirectory_iff.2 ⟨hnul, l, h.locate hlocate, h.directory l hentry⟩

theorem makeOne_eq_ok_iff : t.makeOne p = .ok u ↔
    ∃ l, t.locate p = .ok l ∧ t.entry? l = none ∧ u = t.set l .directory := by
  rw [makeOne]
  cases hlocate : t.locate p with
  | error code => simp [bind, Except.bind]
  | ok l => cases hentry : t.entry? l <;> simp [bind, Except.bind, hentry, eq_comm]

theorem isDirectory_of_makeOne (hnul : p.hasNul = false) (h : t.makeOne p = .ok u) :
    u.isDirectory p = true := by
  obtain ⟨l, hlocate, hentry, rfl⟩ := makeOne_eq_ok_iff.1 h
  have hl : l ≠ [] := by
    rintro rfl
    rw [entry?_nil] at hentry
    cases hentry
  have hkeeps : t.Keeps (t.set l .directory) := keeps_set (by rw [hentry]; exact nofun) _
  exact isDirectory_iff.2 ⟨hnul, l, hkeeps.locate hlocate, entry?_set_self t hl _⟩

/-- Where making a directory goes well, it is there afterwards. -/
theorem isDirectory_of_makeLevels {room : Nat} (h : t.makeLevels p room = (u, .ok ())) :
    u.isDirectory p = true := by
  cases room with
  | zero => cases h
  | succ room =>
    rw [makeLevels] at h
    split at h
    · cases h
    next hnul =>
      have hnul : p.hasNul = false := by simpa using hnul
      split at h
      next hmade =>
        cases h
        exact isDirectory_of_makeOne hnul hmade
      next =>
        split at h
        · cases h
        split at h
        · cases h
        split at h
        next hmade =>
          cases h
          exact isDirectory_of_makeOne hnul hmade
        next =>
          split at h
          next hthere =>
            cases h
            exact hthere.2
          next => cases h
      next =>
        split at h
        next hthere =>
          cases h
          exact hthere
        next => cases h

/-- A directory that is there already is left alone. -/
theorem makeDirectory_of_isDirectory [Room] (h : t.isDirectory p = true) :
    t.makeDirectory p = (t, .ok ()) := by
  obtain ⟨hnul, l, hlocate, hentry⟩ := isDirectory_iff.1 h
  have hone : t.makeOne p = .error .exists := by
    rw [makeOne, hlocate]
    simp only [bind, Except.bind, hentry]
  obtain ⟨room, hroom⟩ := Room.exists_directories_eq
  rw [makeDirectory, hroom, makeLevels, if_neg (by simp [hnul]), hone]
  exact if_pos h

/-! ### Files that can be written -/

/-- A text can be written to a path. -/
def Writable [Room] (t : FileTree) (p : Path) : Prop := ∃ u n, t.write p [] = (u, .ok n)

/-- The directory of a file that was prepared stays, and is not made again. -/
theorem Keeps.prepared [Room] {v : FileTree} (h : u.Keeps v) (hu : t.prepared p = (u, .ok ())) :
    v.prepared p = (v, .ok ()) := by
  rw [FileTree.prepared] at hu ⊢
  split at hu
  · rw [if_pos (by assumption)]
    exact makeDirectory_of_isDirectory (h.isDirectory (isDirectory_of_makeLevels hu))
  · rw [if_neg (by assumption)]

theorem writable_iff [Room] : t.Writable p ↔ p.hasNul = false ∧
    ∃ made l, t.prepared p = (made, .ok ()) ∧ made.locate p = .ok l ∧
      made.entry? l ≠ some .directory := by
  constructor
  · rintro ⟨u, n, hwrite⟩
    obtain ⟨-, -, made, hprepared, hput⟩ := write_eq_ok_iff.1 hwrite
    obtain ⟨hnul, l, hlocate, hentry, -⟩ := put_eq_ok_iff.1 hput
    exact ⟨hnul, made, l, hprepared, hlocate, hentry⟩
  · rintro ⟨hnul, made, l, hprepared, hlocate, hentry⟩
    exact ⟨_, _, write_eq_ok_iff.2 ⟨rfl, rfl, made, hprepared,
      put_eq_ok_iff.2 ⟨hnul, l, hlocate, hentry, rfl⟩⟩⟩

/-- Where one text can be written, any other can, and after that any again. -/
theorem Writable.write [Room] (h : t.Writable p) (content : List Char) :
    ∃ u n, t.write p content = (u, .ok n) ∧ u.Writable p := by
  obtain ⟨hnul, made, l, hprepared, hlocate, hentry⟩ := writable_iff.1 h
  have hl : l ≠ [] := by
    rintro rfl
    exact hentry (entry?_nil made)
  have hkeeps := keeps_set hentry (.file (Text.encode content))
  refine ⟨made.set l (.file (Text.encode content)), (Text.encode content).length,
    write_eq_ok_iff.2 ⟨rfl, rfl, made, hprepared,
      put_eq_ok_iff.2 ⟨hnul, l, hlocate, hentry, rfl⟩⟩,
    writable_iff.2 ⟨hnul, _, l, hkeeps.prepared hprepared, hkeeps.locate hlocate, ?_⟩⟩
  rw [entry?_set_self made hl]
  exact nofun

theorem Writable.prepared [Room] (h : t.Writable p) : (t.prepared p).1.Writable p := by
  obtain ⟨hnul, made, l, hprepared, hlocate, hentry⟩ := writable_iff.1 h
  rw [hprepared]
  exact writable_iff.2 ⟨hnul, made, l, (Keeps.refl made).prepared hprepared, hlocate, hentry⟩

/-- Once its directory is made, nothing stands at the path of a file that can be written and has no
bytes. -/
theorem Writable.probe_prepared [Room] (h : t.Writable p)
    (hnone : ∀ bytes, (t.prepared p).1.bytes p ≠ .ok bytes) :
    (t.prepared p).1.probe p = .ok none := by
  obtain ⟨hnul, made, l, hprepared, hlocate, hentry⟩ := writable_iff.1 h
  rw [hprepared] at hnone ⊢
  have habsent : made.entry? l = none := by
    cases hfound : made.entry? l with
    | none => rfl
    | some e =>
      cases e with
      | directory => exact absurd hfound hentry
      | file bytes => exact absurd (bytes_eq_ok_iff.2 ⟨hnul, l, hlocate, hfound⟩) (hnone bytes)
  have hstatus : made.status p = .error .noEntry := by
    rw [status, hlocate]
    simp only [bind, Except.bind, habsent]
  rw [probe, if_neg (by simp [hnul]), hstatus]

end FileTree

end CatalogSync
