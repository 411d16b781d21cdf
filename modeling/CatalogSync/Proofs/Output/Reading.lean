import CatalogSync.Proofs.Files.Breaks
import CatalogSync.Proofs.Output.Binding
import CatalogSync.Proofs.Schema.Faults

/-!
Reading a bound file, whatever stands at its path. What the system refuses is reported, and JSON that is
malformed counts as no content. A relation attribute that cannot be read leaves the reading, and so do
a null character in the path, bytes that are no text, values of JSON too deep in one another, and an
integer of too many digits.
-/

namespace CatalogSync

/-! ### The text of a file -/

namespace FileTree

variable {t : FileTree} {p : Path}

theorem read_eq_ok_iff {text : List Char} : t.read p = .ok text ↔
    ∃ bytes s, t.bytes p = .ok bytes ∧ Text.decode bytes = .ok s ∧ text = Text.unifyBreaks s := by
  rw [read]
  cases hbytes : t.bytes p with
  | error e => simp [bind, Except.bind]
  | ok bytes => cases hdecode : Text.decode bytes <;> simp [bind, Except.bind, hdecode, eq_comm]

/-- Reading fails of itself exactly where the path holds the null character, and where the bytes of the
file are no text. -/
theorem broken_read_iff : FileFault.Broken (t.read p) ↔
    p.hasNul ∨ ∃ bytes fault, t.bytes p = .ok bytes ∧ Text.decode bytes = .error fault := by
  rw [read]
  cases hbytes : t.bytes p with
  | ok bytes =>
    have hnul : p.hasNul = false := (bytes_eq_ok_iff.1 hbytes).1
    cases hdecode : Text.decode bytes <;>
      simp [bind, Except.bind, hdecode, hnul, FileFault.Broken, Fault.isSystemFault]
  | error e =>
    simp only [bind, Except.bind, FileFault.broken_error_iff]
    rw [FileTree.bytes] at hbytes
    by_cases hnul : p.hasNul
    · rw [if_pos hnul] at hbytes
      cases hbytes
      simp [hnul, Fault.isSystemFault]
    · rw [if_neg hnul] at hbytes
      split at hbytes <;> cases hbytes <;> simp [hnul, Fault.isSystemFault]

/-- What is against reading a file for a format is only what the system refuses, or a relation attribute
that cannot be read: its path does not hold the null character, its bytes are a text, and a JSON text that
is well formed has neither values too deep in one another nor an integer of too many digits. -/
structure Legible [Room] (t : FileTree) (p : Path) (f : Format) : Prop where
  text : ¬FileFault.Broken (t.read p)
  content : f = .json → ∀ text fault, t.read p = .ok text → Json.read text = .error fault →
    fault = .malformed

section
variable {f : Format}

theorem legible_of_read_error [Room] {fault : FileFault} (hread : t.read p = .error fault) :
    t.Legible p f ↔ (Fault.file fault).isSystemFault := by
  have hbroken : ¬FileFault.Broken (t.read p) ↔ (Fault.file fault).isSystemFault := by
    rw [hread, FileFault.broken_error_iff, Bool.not_eq_false]
  refine ⟨fun h => hbroken.1 h.text, fun h => ⟨hbroken.2 h, fun _ text _ htext => ?_⟩⟩
  rw [hread] at htext
  cases htext

theorem legible_of_read [Room] {text : List Char} (hread : t.read p = .ok text) :
    t.Legible p f ↔ (f = .json → ∀ fault, Json.read text = .error fault → fault = .malformed) := by
  constructor
  · exact fun h hf fault => h.content hf text fault hread
  · intro h
    refine ⟨?_, fun hf text' fault htext => ?_⟩
    · rw [hread]
      exact FileFault.not_broken_ok text
    · rw [hread] at htext
      cases htext
      exact h hf fault

/-- Whether a file is legible is told by its path and its bytes. -/
theorem legible_iff [Room] : t.Legible p f ↔
    p.hasNul = false ∧ ∀ bytes, t.bytes p = .ok bytes → ∃ text, Text.decode bytes = .ok text ∧
      (f = .json → ∀ fault, Json.read (Text.unifyBreaks text) = .error fault →
        fault = .malformed) := by
  constructor
  · intro h
    obtain ⟨hnul, htext⟩ := not_or.1 (mt broken_read_iff.2 h.text)
    refine ⟨eq_false_of_ne_true hnul, fun bytes hbytes => ?_⟩
    cases hdecode : Text.decode bytes with
    | error fault => exact absurd ⟨bytes, fault, hbytes, hdecode⟩ htext
    | ok text =>
      have hread : t.read p = .ok (Text.unifyBreaks text) :=
        read_eq_ok_iff.2 ⟨bytes, text, hbytes, hdecode, rfl⟩
      exact ⟨text, rfl, (legible_of_read hread).1 h⟩
  · rintro ⟨hnul, h⟩
    refine ⟨fun hbroken => ?_, fun hf text fault hread hfault => ?_⟩
    · rcases broken_read_iff.1 hbroken with hnul' | ⟨bytes, fault, hbytes, hdecode⟩
      · rw [hnul] at hnul'
        cases hnul'
      · obtain ⟨text, htext, -⟩ := h bytes hbytes
        rw [hdecode] at htext
        cases htext
    · obtain ⟨bytes, s, hbytes, hdecode, rfl⟩ := read_eq_ok_iff.1 hread
      obtain ⟨text, htext, hmalformed⟩ := h bytes hbytes
      rw [hdecode] at htext
      cases htext
      exact hmalformed hf fault hfault

end

end FileTree

/-! ### The content of a text -/

namespace Content

variable {f : Format} {text : List Char} {e : Fault}

theorem isRelationFault_of_parse [Room] (h : Content.parse .prisma text = .error e) : e.isRelationFault := by
  rw [Content.parse] at h
  cases hschema : Schema.parse text with
  | ok value =>
    rw [hschema] at h
    cases h
  | error fault =>
    rw [hschema] at h
    cases h
    exact Schema.isRelationFault_of_parse hschema

/-- A text of JSON that is not read is well formed all the same: an integer has too many digits, or values
are too deep in one another. -/
theorem parse_json_error_iff [Room] : Content.parse .json text = .error e ↔
    ∃ fault, Json.read text = .error fault ∧
      ((∃ digits, fault = .longInteger digits ∧ e = .longInteger digits) ∨
        ∃ innermost, fault = .tooDeep innermost ∧ e = .tooDeep innermost.reading) := by
  rw [Content.parse]
  cases Json.read text with
  | ok value => cases value <;> simp
  | error fault => cases fault <;> simp [eq_comm]

/-- A text is read, or it is of a schema and has a relation attribute that cannot be read, unless it is
JSON that is not read although it is well formed. -/
theorem parse_ends_iff [Room] : (∀ e, Content.parse f text = .error e → f = .prisma ∧ e.isRelationFault) ↔
    (f = .json → ∀ fault, Json.read text = .error fault → fault = .malformed) := by
  cases f with
  | prisma => exact iff_of_true (fun e h => ⟨rfl, isRelationFault_of_parse h⟩) nofun
  | json =>
    rw [forall_prop_of_true rfl]
    constructor
    · intro h fault hread
      by_contra hne
      obtain ⟨e, hparse⟩ : ∃ e, Content.parse .json text = .error e := by
        cases fault with
        | malformed => exact absurd rfl hne
        | longInteger digits => exact ⟨_, parse_json_error_iff.2 ⟨_, hread, .inl ⟨_, rfl, rfl⟩⟩⟩
        | tooDeep innermost => exact ⟨_, parse_json_error_iff.2 ⟨_, hread, .inr ⟨_, rfl, rfl⟩⟩⟩
      cases (h e hparse).1
    · intro h e hparse
      obtain ⟨fault, hread, hfault⟩ := parse_json_error_iff.1 hparse
      cases h fault hread
      rcases hfault with ⟨_, ⟨⟩, -⟩ | ⟨_, ⟨⟩, -⟩

end Content

/-! ### Bound files -/

namespace Binding

variable {f : Format} {b : Binding f} {w : Workspace}

/-- Reading ends in a transfer, or in a relation attribute of a schema that cannot be read, exactly if the
file is legible or was read before. -/
theorem loadDisk_ends_iff_legible [Room] (b : Binding f) (w : Workspace) :
    ((∃ transfer loaded u, b.loadDisk w = .ok (transfer, loaded) u) ∨
        f = .prisma ∧ ∃ e u, b.loadDisk w = .error e u ∧ e.isRelationFault) ↔
      (b.disk = none → w.files.Legible b.path f) := by
  cases hdisk : b.disk with
  | some content =>
    obtain ⟨u, hload⟩ := loadDisk_of_some (w := w) hdisk
    exact iff_of_true (.inl ⟨_, _, u, hload⟩) nofun
  | none =>
    rw [forall_prop_of_true rfl]
    cases hread : w.files.read b.path with
    | error fault =>
      obtain ⟨u, hload⟩ := loadDisk_of_error hdisk hread
      rw [FileTree.legible_of_read_error hread, hload]
      by_cases hsystem : (Fault.file fault).isSystemFault
      · rw [if_pos hsystem]
        exact iff_of_true (.inl ⟨_, _, u, rfl⟩) hsystem
      · rw [if_neg hsystem]
        refine iff_of_false ?_ hsystem
        rintro (⟨_, _, _, ⟨⟩⟩ | ⟨-, _, _, ⟨⟩, ⟨⟩⟩)
    | ok text =>
      rw [FileTree.legible_of_read hread, ← Content.parse_ends_iff, loadDisk_of_text hdisk hread]
      cases Content.parse f text with
      | ok content => exact iff_of_true (.inl ⟨_, _, _, rfl⟩) nofun
      | error e => simp

/-- Reading a bound file that nothing was read from yet ends in a transfer, or, where the file is to hold a
schema, in a relation attribute that cannot be read, exactly if its path does not hold the null character
and, where a file is there, its bytes are a text, and one that JSON is refused for at most by being
malformed. So a path that leads to nothing, to a directory, or past what the system takes is no hindrance,
and neither is any text where a schema is to be read. -/
theorem loadDisk_ends_iff [Room] (b : Binding f) (w : Workspace) :
    ((∃ transfer loaded u, b.loadDisk w = .ok (transfer, loaded) u) ∨
        f = .prisma ∧ ∃ e u, b.loadDisk w = .error e u ∧ e.isRelationFault) ↔
      (b.disk = none → b.path.hasNul = false ∧ ∀ bytes, w.files.bytes b.path = .ok bytes →
        ∃ text, Text.decode bytes = .ok text ∧ (f = .json → ∀ fault,
          Json.read (Text.unifyBreaks text) = .error fault → fault = .malformed)) := by
  rw [loadDisk_ends_iff_legible, FileTree.legible_iff]

section
open scoped Room

/-- A file of one byte, which starts no character. -/
def latinDesk : Workspace :=
  { Workspace.bare with files := ⟨[(["shelf"], .file [0xFF])], []⟩ }

/-- The file of one byte, to be read for a format. -/
def latinFile (f : Format) : Binding f where
  path := ⟨.here, ["shelf"]⟩

/-- Bytes that are no text leave the reading of a file for both formats. -/
theorem loadDisk_latinFile_ne :
    ¬((∃ transfer loaded u, (latinFile .json).loadDisk latinDesk = .ok (transfer, loaded) u) ∨
        Format.json = .prisma ∧ ∃ e u, (latinFile .json).loadDisk latinDesk = .error e u ∧
          e.isRelationFault) ∧
    ¬((∃ transfer loaded u, (latinFile .prisma).loadDisk latinDesk = .ok (transfer, loaded) u) ∨
        Format.prisma = .prisma ∧ ∃ e u, (latinFile .prisma).loadDisk latinDesk = .error e u ∧
          e.isRelationFault) := by
  have hbroken : FileFault.Broken (latinDesk.files.read ⟨.here, ["shelf"]⟩) := ⟨_, rfl, rfl⟩
  constructor
  · intro h
    exact ((loadDisk_ends_iff_legible _ _).1 h rfl).text hbroken
  · intro h
    exact ((loadDisk_ends_iff_legible _ _).1 h rfl).text hbroken

end

end Binding

end CatalogSync
