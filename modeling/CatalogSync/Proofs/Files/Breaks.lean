import CatalogSync.Fault
import CatalogSync.Proofs.Files.Directories
import Mathlib.Logic.Function.Iterate

/-!
Writings that fail although the system does not refuse them. Directories are made from the last one that
is missing, and there is room for a number of them; a name may hold the null character, and a text may
have no bytes.
-/

namespace CatalogSync

/-- An outcome that is a fault and no refusal of the system. -/
def FileFault.Broken {α : Type} (x : Except FileFault α) : Prop :=
  ∃ e, x = .error e ∧ (Fault.file e).isSystemFault = false

namespace FileFault

variable {α : Type} {e : FileFault}

theorem not_broken_ok (a : α) : ¬Broken (.ok a : Except FileFault α) := nofun

theorem broken_error_iff : Broken (.error e : Except FileFault α) ↔
    (Fault.file e).isSystemFault = false := by
  constructor
  · rintro ⟨e', h, hsystem⟩
    cases h
    exact hsystem
  · exact fun hsystem => ⟨e, rfl, hsystem⟩

theorem not_broken_os (code : OsCode) (q : Path) : ¬Broken (.error (.os code q) : Except FileFault α) :=
  fun h => absurd (broken_error_iff.1 h) (by simp [Fault.isSystemFault])

end FileFault

namespace FileTree

open FileFault (Broken broken_error_iff not_broken_ok not_broken_os)

variable {t : FileTree} {p : Path} {room : Nat}

/-- A path and the paths above it, up to a number of them, cannot be followed for want of a directory. -/
def Buried (t : FileTree) (p : Path) (room : Nat) : Prop :=
  ∀ k < room, t.locate (Path.parent^[k] p) = .error .noEntry

theorem buried_zero (t : FileTree) (p : Path) : t.Buried p 0 :=
  fun k hk => absurd hk (Nat.not_lt_zero k)

theorem buried_succ_iff : t.Buried p (room + 1) ↔
    t.locate p = .error .noEntry ∧ t.Buried p.parent room := by
  constructor
  · intro h
    exact ⟨h 0 (Nat.succ_pos room), fun k hk => h (k + 1) (Nat.succ_lt_succ hk)⟩
  · rintro ⟨hfirst, hrest⟩ k hk
    cases k with
    | zero => exact hfirst
    | succ k => exact hrest k (Nat.lt_of_succ_lt_succ hk)

/-- A path with fewer names than there is room for has not too many directories missing. -/
theorem not_buried_of_lt (h : p.parts.length < room) : ¬t.Buried p room := by
  induction room generalizing p with
  | zero => exact absurd h (Nat.not_lt_zero _)
  | succ room ih =>
    intro hburied
    obtain ⟨hnone, hrest⟩ := buried_succ_iff.1 hburied
    have hpos := List.length_pos_iff.2 (parts_ne_of_noEntry hnone)
    have hparent : p.parent.parts.length = p.parts.length - 1 := List.length_dropLast
    exact ih (by omega) hrest

theorem hasNul_parent (h : p.hasNul = false) : p.parent.hasNul = false := by
  rw [Path.hasNul, List.any_eq_false] at h ⊢
  exact fun name hname => h name (List.dropLast_subset _ hname)

/-- Making the last directory is refused by the system, or goes well. -/
theorem not_broken_makeLast (t : FileTree) (p : Path) : ¬Broken (t.makeLast p).2 := by
  rw [makeLast]
  split
  · exact not_broken_ok ()
  · split
    · exact not_broken_ok ()
    · exact not_broken_os _ p

/-- Making a directory fails of itself exactly where as many are missing as there is room for. -/
theorem broken_makeLevels_iff (hnul : p.hasNul = false) (room : Nat) :
    Broken (t.makeLevels p room).2 ↔ t.Buried p room := by
  induction room generalizing p with
  | zero => exact iff_of_true ⟨_, rfl, rfl⟩ (buried_zero t p)
  | succ room ih =>
    rw [buried_succ_iff]
    by_cases hnone : t.locate p = .error .noEntry
    · rw [makeLevels_of_noEntry hnul hnone, ← ih (hasNul_parent hnul), and_iff_right hnone]
      rcases t.makeLevels p.parent room with ⟨made, e | _⟩
      · exact Iff.rfl
      · exact iff_of_false (not_broken_makeLast made p) (not_broken_ok ())
    · rw [makeLevels_of_ne hnul hnone]
      exact iff_of_false (not_broken_makeLast t p) fun h => hnone h.1

/-- Writing a file fails of itself: too many directories are missing above it, a name holds the null
character, or the text has no bytes. -/
inductive Breaks [Room] (t : FileTree) (p : Path) (halves : Option Text.HalfFault) : Prop
  | buried (needs : needsDirectory p) (missing : t.Buried p.parent Room.directories)
  | nulAbove (needs : needsDirectory p) (nul : p.parent.hasNul)
  | nul (made : (t.prepared p).2 = .ok ()) (nul : p.hasNul)
  | halves (made : (t.prepared p).2 = .ok ()) (halved : halves.isSome)

/-- Making the directory of a file fails of itself where the writing does for its sake. -/
theorem broken_prepared_iff [Room] : Broken (t.prepared p).2 ↔
    needsDirectory p ∧ (t.Buried p.parent Room.directories ∨ p.parent.hasNul) := by
  rw [prepared]
  split
  next hneeds =>
    rw [and_iff_right hneeds]
    cases hnul : p.parent.hasNul with
    | true =>
      refine iff_of_true ⟨.nullCharacter, ?_, rfl⟩ (.inr rfl)
      obtain ⟨room, hroom⟩ := Room.exists_directories_eq
      rw [makeDirectory, hroom, makeLevels, if_pos hnul]
    | false =>
      rw [makeDirectory, broken_makeLevels_iff hnul]
      simp
  next hneeds => exact iff_of_false (not_broken_ok ()) fun h => hneeds h.1

/-- Putting bytes fails of itself where a name holds the null character. -/
theorem broken_put_iff (bytes : List UInt8) : Broken (t.put p bytes).2 ↔ p.hasNul := by
  rw [put]
  cases hnul : p.hasNul with
  | true => exact iff_of_true ⟨_, rfl, rfl⟩ rfl
  | false =>
    refine iff_of_false ?_ Bool.false_ne_true
    rw [if_neg Bool.false_ne_true]
    split
    · exact not_broken_os _ p
    · split
      · exact not_broken_os _ p
      · exact not_broken_ok ()

theorem breaks_iff [Room] {halves : Option Text.HalfFault} : t.Breaks p halves ↔
    Broken (t.prepared p).2 ∨ (t.prepared p).2 = .ok () ∧ (p.hasNul ∨ halves.isSome) := by
  rw [broken_prepared_iff]
  constructor
  · rintro (⟨hneeds, hburied⟩ | ⟨hneeds, hnul⟩ | ⟨hmade, hnul⟩ | ⟨hmade, hhalves⟩)
    · exact .inl ⟨hneeds, .inl hburied⟩
    · exact .inl ⟨hneeds, .inr hnul⟩
    · exact .inr ⟨hmade, .inl hnul⟩
    · exact .inr ⟨hmade, .inr hhalves⟩
  · rintro (⟨hneeds, hburied | hnul⟩ | ⟨hmade, hnul | hhalves⟩)
    · exact .buried hneeds hburied
    · exact .nulAbove hneeds hnul
    · exact .nul hmade hnul
    · exact .halves hmade hhalves

/-- A text is written, or the system refuses it, unless the writing fails of itself. -/
theorem broken_write_iff [Room] (content : List Char) (halves : Option Text.HalfFault) :
    Broken (t.write p content halves).2 ↔ t.Breaks p halves := by
  rw [breaks_iff, write_eq]
  rcases t.prepared p with ⟨made, e | _⟩
  · simp only [reduceCtorEq, false_and, or_false]
    exact broken_error_iff.trans broken_error_iff.symm
  · simp only [not_broken_ok, true_and, false_or]
    cases halves with
    | some fault => exact iff_of_true ⟨_, rfl, rfl⟩ (.inr rfl)
    | none =>
      have hput := broken_put_iff (t := made) (p := p) (Text.encode content)
      simp only [Option.isSome_none, Bool.false_eq_true, or_false, ← hput]
      rcases made.put p (Text.encode content) with ⟨left, e | _⟩
      · exact broken_error_iff.trans broken_error_iff.symm
      · exact iff_of_false (not_broken_ok _) (not_broken_ok _)

/-- A writing goes through or is refused where no name holds the null character, the path has not too
many names, and the text has its bytes. -/
theorem not_breaks [Room] (hnul : p.hasNul = false) (hlength : p.parent.parts.length < Room.directories) :
    ¬t.Breaks p none := by
  rintro (⟨-, hburied⟩ | ⟨-, habove⟩ | ⟨-, hhere⟩ | ⟨-, hhalves⟩)
  · exact not_buried_of_lt hlength hburied
  · rw [hasNul_parent hnul] at habove
    cases habove
  · rw [hnul] at hhere
    cases hhere
  · cases hhalves

end FileTree

end CatalogSync
