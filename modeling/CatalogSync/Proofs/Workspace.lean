import CatalogSync.Workspace
import Mathlib.Control.Basic

/-!
Operations on a workspace, taken apart. What an operation of several steps comes to is told by what
each of its steps comes to, in the workspace that the steps before it left.
-/

namespace CatalogSync

section
variable {ε σ α β : Type} {x : EStateM ε σ α} {f : α → EStateM ε σ β} {s t u : σ} {a : α} {b : β}
  {e : ε}

theorem get_apply (s : σ) : (get : EStateM ε σ σ) s = .ok s s := rfl

/-- A sequence goes well exactly if both of its steps do. -/
theorem bind_eq_ok_iff : (x >>= f) s = .ok b u ↔ ∃ a t, x s = .ok a t ∧ f a t = .ok b u := by
  have hbind : (x >>= f) s = match x s with
    | .ok a t => f a t
    | .error e t => .error e t := rfl
  rw [hbind]
  cases x s with
  | error e t => simp
  | ok a t => simp [and_assoc]

theorem bind_of_eq_ok (h : x s = .ok a t) : (x >>= f) s = f a t := by
  have hbind : (x >>= f) s = match x s with
    | .ok a t => f a t
    | .error e t => .error e t := rfl
  rw [hbind, h]

theorem bind_of_eq_error (h : x s = .error e t) : (x >>= f) s = .error e t := by
  have hbind : (x >>= f) s = match x s with
    | .ok a t => f a t
    | .error e t => .error e t := rfl
  rw [hbind, h]

theorem pure_eq_ok_iff {b : α} : (pure a : EStateM ε σ α) s = .ok b u ↔ a = b ∧ s = u := by
  have hpure : (pure a : EStateM ε σ α) s = .ok a s := rfl
  rw [hpure, EStateM.Result.ok.injEq]

/-- An operation that goes well is not caught. -/
theorem tryCatch_of_eq_ok (h : x s = .ok a t) (handle : ε → EStateM ε σ α) :
    (tryCatch x handle : EStateM ε σ α) s = .ok a t := by
  simp only [tryCatch, tryCatchThe, MonadExceptOf.tryCatch, EStateM.tryCatch, h]

/-- The handler of a fault goes on with what was there when it was thrown. -/
theorem tryCatch_of_eq_error (h : x s = .error e t) (handle : ε → EStateM ε σ α) :
    (tryCatch x handle : EStateM ε σ α) s = handle e t := by
  simp only [tryCatch, tryCatchThe, MonadExceptOf.tryCatch, EStateM.tryCatch, h]
  rfl

/-- The state that an operation leaves, however it ends. -/
def left : EStateM.Result ε σ α → σ
  | .ok _ s => s
  | .error _ s => s

/-- Returning a value leaves what was there before. -/
theorem left_bind_pure {g : α → β} : left ((x >>= fun a => pure (g a)) s) = left (x s) := by
  cases h : x s with
  | ok a t => rw [bind_of_eq_ok h]; rfl
  | error e t => rw [bind_of_eq_error h]; rfl

theorem bind_pure_eq_ok_iff {b' : β} :
    (x >>= fun _ => pure b) s = .ok b' u ↔ (∃ a, x s = .ok a u) ∧ b = b' := by
  rw [bind_eq_ok_iff]
  constructor
  · rintro ⟨a, t, hx, hpure⟩
    obtain ⟨rfl, rfl⟩ := pure_eq_ok_iff.1 hpure
    exact ⟨⟨a, hx⟩, rfl⟩
  · rintro ⟨⟨a, hx⟩, rfl⟩
    exact ⟨a, u, hx, rfl⟩

end

namespace Act

variable {w u : Workspace} {p : Path} {content : List Char} {halves : Option Text.HalfFault} {n : Nat}

theorem notes_apply (ns : List Note) (w : Workspace) : notes ns w = .ok () (w.noting ns) := rfl

/-- A text that was written went into the files as they were. -/
theorem write_of_writeText [Room] (h : writeText p content halves w = .ok n u) :
    w.files.write p content halves = (u.files, .ok n) := by
  rw [writeText, onFiles] at h
  rcases hwrite : w.files.write p content halves with ⟨files, e | size⟩
  · rw [hwrite] at h
    cases h
  · rw [hwrite] at h
    cases h
    rfl

theorem writeText_of_write [Room] {files : FileTree}
    (h : w.files.write p content halves = (files, .ok n)) :
    ∃ u, u.files = files ∧ writeText p content halves w = .ok n u := by
  rw [writeText, onFiles, h]
  exact ⟨_, rfl, rfl⟩

theorem writeText_of_error [Room] {files : FileTree} {e : FileFault}
    (h : w.files.write p content halves = (files, .error e)) :
    ∃ u, u.files = files ∧ writeText p content halves w = .error (.file e) u := by
  rw [writeText, onFiles, h]
  exact ⟨_, rfl, rfl⟩

/-- What is timed leaves the files as it would without a timer. -/
theorem exists_timed {α : Type} (label : String) (act : Act α) (w : Workspace) :
    ∃ elapsed u, u.files = (left (act w.readClock.2)).files ∧
      timed label act w = match act w.readClock.2 with
        | .ok a _ => .ok (a, elapsed) u
        | .error e _ => .error e u := by
  rw [timed]
  cases act w.readClock.2 with
  | ok a v =>
    refine ⟨_, _, ?_, rfl⟩
    rfl
  | error e v =>
    refine ⟨.zero, _, ?_, rfl⟩
    rfl

theorem readText_of_read (h : w.files.read p = .ok content) :
    readText p w = .ok content (w.noting []) := by
  rw [readText, onFiles]
  simp only [h]

theorem readText_of_error {e : FileFault} (h : w.files.read p = .error e) :
    readText p w = .error (.file e) (w.noting []) := by
  rw [readText, onFiles]
  simp only [h]

/-- The operation changes no file, however it ends. -/
def KeepsFiles {α : Type} (act : Act α) : Prop := ∀ w, (left (act w)).files = w.files

section
variable {α β : Type} {act : Act α}

theorem keepsFiles_pure (a : α) : KeepsFiles (pure a) := fun _ => rfl

theorem keepsFiles_get : KeepsFiles (get : Act Workspace) := fun _ => rfl

theorem keepsFiles_notes (ns : List Note) : KeepsFiles (notes ns) := fun _ => rfl

theorem keepsFiles_ofExcept (x : Except Fault α) : KeepsFiles (ofExcept x) := by
  intro w
  cases x <;> rfl

theorem KeepsFiles.bind {next : α → Act β} (h : KeepsFiles act) (hnext : ∀ a, KeepsFiles (next a)) :
    KeepsFiles (act >>= next) := by
  intro w
  have hw := h w
  cases hact : act w with
  | ok a u =>
    rw [hact] at hw
    rw [bind_of_eq_ok hact]
    exact (hnext a u).trans hw
  | error e u =>
    rw [hact] at hw
    rw [bind_of_eq_error hact]
    exact hw

theorem KeepsFiles.tryCatch {handle : Fault → Act α} (h : KeepsFiles act)
    (hhandle : ∀ e, KeepsFiles (handle e)) : KeepsFiles (tryCatch act handle) := by
  intro w
  have hw := h w
  cases hact : act w with
  | ok a u =>
    rw [hact] at hw
    rw [tryCatch_of_eq_ok hact]
    exact hw
  | error e u =>
    rw [hact] at hw
    rw [tryCatch_of_eq_error hact]
    exact (hhandle e u).trans hw

end

end Act

/-- A workspace without files. -/
def Workspace.bare : Workspace where
  files := ⟨[], ["home"]⟩
  clock := { tick := .zero }

end CatalogSync
