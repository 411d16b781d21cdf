import CatalogSync.Proofs.Files.Tree
import CatalogSync.Proofs.Workspace
import CatalogSync.Settings.File

/-!
What can be wrong with the text of a settings file. Most of it is that a value is not what it should be;
the rest is that values stand too deep in one another, and a few scalars that claim to be what they are
not.
-/

namespace CatalogSync

/-- The fault ends the reading of settings with an explanation. -/
def Fault.isExplained (e : Fault) : Bool := e.isMissingFile || e.isValueFault

/-- The refusal counts as a value that is not what it should be. -/
def Yaml.Refusal.isExplained : Yaml.Refusal → Bool
  | .malformed | .noCodePoint | .longInteger _ | .noInteger _ _ | .noFloat _ | .noDate _ => true
  | .tooDeep | .escapeTooLarge | .noDigits | .groupTooLarge | .noTruth _ | .noTimestamp
  | .noTextForTime => false

namespace Settings

theorem isExplained_refusalFault (path : Path) (refusal : Yaml.Refusal) :
    (refusalFault path refusal).isExplained = refusal.isExplained := by
  cases refusal <;> rfl

/-- What is wrong with the text of a settings file, if anything, has an explanation. -/
def Explained [Room] (text : List Char) : Grammar → Prop
  | .json => ∀ innermost, Json.read text ≠ .error (.tooDeep innermost)
  | .yaml => ∀ refusal, Yaml.TopLevel.ofText text = .error refusal → refusal.isExplained
  | .either => (∀ innermost, Json.read text ≠ .error (.tooDeep innermost)) ∧
      ((∀ members, Json.read text ≠ .ok (.obj members)) →
        ∀ refusal, Yaml.TopLevel.ofText text = .error refusal → refusal.isExplained)

/-- A fault of a result, if any, has an explanation. -/
def Explains {α : Type} (x : Except Fault α) : Prop := ∀ e, x = .error e → e.isExplained

theorem explains_ok {α : Type} (a : α) : Explains (.ok a) := nofun

theorem explains_error_iff {α : Type} {e : Fault} :
    Explains (.error e : Except Fault α) ↔ e.isExplained := by
  constructor
  · exact fun h => h e rfl
  · rintro h _ ⟨⟩
    exact h

theorem explains_rawOfJsonText_iff [Room] (path : Path) (text : List Char) :
    Explains (rawOfJsonText path text) ↔
      ∀ innermost, Json.read text ≠ .error (.tooDeep innermost) := by
  rw [rawOfJsonText]
  cases Json.read text with
  | error fault =>
    cases fault with
    | malformed => exact iff_of_true (explains_error_iff.2 rfl) nofun
    | longInteger digits => exact iff_of_true (explains_error_iff.2 rfl) nofun
    | tooDeep innermost =>
      exact iff_of_false (fun h => nomatch explains_error_iff.1 h) fun h => h innermost rfl
  | ok value =>
    refine iff_of_true ?_ nofun
    cases value
    case obj members => exact explains_ok _
    all_goals exact explains_error_iff.2 rfl

theorem explains_rawOfYamlText_iff [Room] (path : Path) (text : List Char) :
    Explains (rawOfYamlText path text) ↔
      ∀ refusal, Yaml.TopLevel.ofText text = .error refusal → refusal.isExplained := by
  rw [rawOfYamlText]
  cases Yaml.TopLevel.ofText text with
  | error refusal =>
    dsimp only
    rw [explains_error_iff, isExplained_refusalFault]
    simp
  | ok found =>
    refine iff_of_true ?_ nofun
    cases found with
    | mapping entries => exact explains_ok _
    | other value =>
      cases value
      case null => exact explains_ok _
      all_goals exact explains_error_iff.2 rfl

/-- Exactly an object gives members. -/
theorem rawOfJsonText_eq_ok_iff [Room] {path : Path} {text : List Char} :
    (∃ raw, rawOfJsonText path text = .ok raw) ↔ ∃ members, Json.read text = .ok (.obj members) := by
  rw [rawOfJsonText]
  cases Json.read text with
  | error fault => cases fault <;> simp
  | ok value => cases value <;> simp

/-- What is wrong with a JSON text is never that a file is missing. -/
theorem isExplained_of_rawOfJsonText [Room] {path : Path} {text : List Char} {e : Fault}
    (h : rawOfJsonText path text = .error e) : e.isExplained = e.isValueFault := by
  rw [rawOfJsonText] at h
  split at h <;> cases h <;> rfl

theorem explains_rawOfFile_iff [Room] (path : Path) (text : List Char) (g : Grammar) :
    Explains (rawOfFile path (.ok text) g) ↔ Explained text g := by
  cases g with
  | json => exact explains_rawOfJsonText_iff path text
  | yaml => exact explains_rawOfYamlText_iff path text
  | either =>
    rw [Explained, ← explains_rawOfJsonText_iff path, ← explains_rawOfYamlText_iff path, rawOfFile]
    have hmembers : (∃ raw, rawOfJsonText path text = .ok raw) ↔
        ∃ members, Json.read text = .ok (.obj members) := rawOfJsonText_eq_ok_iff
    have hbind : ∀ read : List Char → Except Fault (List RawMember),
        (Except.ok text : Except Fault (List Char)).bind read = read text := fun _ => rfl
    rw [hbind, hbind]
    cases hjson : rawOfJsonText path text with
    | ok raw =>
      obtain ⟨members, hread⟩ := hmembers.1 ⟨raw, hjson⟩
      exact iff_of_true (explains_ok raw) ⟨explains_ok raw, fun h => absurd hread (h members)⟩
    | error e =>
      have hnone : ∀ members, Json.read text ≠ .ok (.obj members) := by
        intro members hread
        obtain ⟨raw, hraw⟩ := hmembers.2 ⟨members, hread⟩
        rw [hjson] at hraw
        cases hraw
      dsimp only
      rw [explains_error_iff, isExplained_of_rawOfJsonText hjson]
      by_cases hvalue : e.isValueFault
      · rw [if_pos hvalue]
        exact ⟨fun h => ⟨hvalue, fun _ => h⟩, fun h => h.2 hnone⟩
      · rw [if_neg hvalue, explains_error_iff, isExplained_of_rawOfJsonText hjson]
        exact ⟨fun h => absurd h hvalue, fun h => h.1⟩

/-- Members that make no settings have an explanation. -/
theorem explains_ofRaw (storage : Option LooseText) (raw : List RawMember) :
    Explains (ofRaw storage raw) := by
  intro e h
  rw [ofRaw] at h
  rw [Validated.toExceptBy.eq_def] at h
  split at h
  · cases h
  · split at h <;> cases h <;> rfl

/-- The settings that a file gives. -/
def ofFile [Room] (storage : Option LooseText) (path : Path) (t : FileTree) : Except Fault Settings := do
  let text : Except Fault (List Char) := match t.read path with
    | .ok text => .ok text
    | .error e => .error (.file e)
  ofRaw storage (← rawOfFile path text (grammarOf (Text.lower path.extension.toList)))

/-- The settings of a file have an explanation exactly if its text has, where it has a text. -/
theorem explains_ofFile_iff [Room] {path : Path} {t : FileTree} {bytes : List UInt8}
    (storage : Option LooseText) (h : t.probe path = .ok (some (.file bytes))) :
    Explains (ofFile storage path t) ↔ ∀ text, t.read path = .ok text →
      Explained text (grammarOf (Text.lower path.extension.toList)) := by
  have hmembers : ∀ x : Except Fault (List RawMember),
      Explains (x >>= ofRaw storage) ↔ Explains x := by
    intro x
    cases x with
    | error e => exact explains_error_iff.trans explains_error_iff.symm
    | ok raw => exact iff_of_true (explains_ofRaw storage raw) (explains_ok raw)
  rw [ofFile]
  rcases FileTree.read_cases_of_probe h with ⟨text, hread⟩ | ⟨fault, hread⟩
  · simp only [hread, hmembers, explains_rawOfFile_iff, Except.ok.injEq, forall_eq']
  · simp only [hread, hmembers, reduceCtorEq, false_implies, implies_true, iff_true]
    cases grammarOf (Text.lower path.extension.toList) <;> exact explains_error_iff.2 rfl

/-- How settings are read from a file. -/
theorem loadFrom_apply [Room] (path : Path) (storage : Option LooseText) (w : Workspace) :
    ∃ u, loadFrom path storage w = match w.files.probe path with
      | .error e => .error (.file e) w
      | .ok (some (.file _)) =>
        match ofFile storage path w.files with
        | .ok settings =>
          .ok settings (u.noting [⟨.info, source, s!"Loaded configuration from {path.toString}"⟩])
        | .error e => .error e u
      | .ok _ => .error (.settingsMissing path.toString) w := by
  rw [loadFrom]
  rcases hprobe : w.files.probe path with e | _ | _ | bytes
  · have hexists : fileExists path w = .error (.file e) w := by
      rw [fileExists]
      simp only [hprobe]
    exact ⟨w, bind_of_eq_error hexists⟩
  · have hexists : fileExists path w = .ok false w := by
      rw [fileExists]
      simp only [hprobe]
    rw [bind_of_eq_ok hexists]
    exact ⟨w, rfl⟩
  · have hexists : fileExists path w = .ok true w := by
      rw [fileExists]
      simp only [hprobe]
    rw [bind_of_eq_ok hexists]
    dsimp only
    rw [if_neg (by decide)]
    split
    · refine ⟨w.noting [⟨.info, source, s!"Unknown extension '{String.ofList
        (Text.lower path.extension.toList)}' — trying JSON then YAML."⟩], ?_⟩
      rw [Act.note, bind_of_eq_ok (Act.notes_apply _ _), bind_of_eq_ok (get_apply _)]
      change (Act.ofExcept (ofFile storage path w.files) >>= _) _ = _
      cases ofFile storage path w.files <;> rfl
    · rw [bind_of_eq_ok (get_apply _)]
      refine ⟨w, ?_⟩
      change (Act.ofExcept (ofFile storage path w.files) >>= _) _ = _
      cases ofFile storage path w.files <;> rfl
  · have hexists : fileExists path w = .ok false w := by
      rw [fileExists]
      simp only [hprobe]
    rw [bind_of_eq_ok hexists]
    exact ⟨w, rfl⟩

end Settings

end CatalogSync
