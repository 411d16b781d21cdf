import CatalogSync.Proofs.Output.Binding

/-!
Histories of a bound file. Its calls come in any order, going well or failing, and between them the
files may become anything. The content of the file that is kept is the first that a reading could have,
and stays; the one made from a database is that of the last tables that were given.
-/

namespace CatalogSync

namespace Binding

variable {f : Format}

/-- The content that the file of a binding holds, where it can be read and has one. -/
def offer [Room] (b : Binding f) (t : FileTree) : Option f.Content :=
  match t.read b.path with
  | .error _ => none
  | .ok text =>
    match Content.parse f text with
    | .error _ => none
    | .ok content => content

/-- What is asked of a binding, or what others make of the files meanwhile. -/
inductive Call where
  | write (tables : List Table)
  | loadDisk
  | loadDatabase (tables : List Table)
  | render
  | others (files : FileTree)

namespace Call

/-- Does what is asked of a binding, and gives what becomes of it. -/
def perform [Room] : Call → Binding f → Act (Binding f)
  | .write tables, b => do
    let _ ← b.write tables
    return b
  | .loadDisk, b => do
    let (_, loaded) ← b.loadDisk
    return loaded
  | .loadDatabase tables, b => do
    Act.notes (Content.ofTablesNotes tables f)
    return b.loadDatabase tables
  | .render, b => do
    Act.notes b.renderNotes
    return b
  | .others files, b => do
    modify ({ · with files := files })
    return b

/-- The binding and the workspace after a call. A call that fails gives no binding, and the one that it
was asked of stands. -/
def after [Room] (c : Call) (s : Binding f × Workspace) : Binding f × Workspace :=
  match c.perform s.1 s.2 with
  | .ok b w => (b, w)
  | .error _ w => (s.1, w)

/-- The content that a call finds in the file. -/
def found? [Room] : Call → Binding f × Workspace → Option f.Content
  | .loadDisk, s => s.1.offer s.2.files
  | _, _ => none

/-- The tables that a call makes a content to be kept from. -/
def tables? : Call → Option (List Table)
  | .loadDatabase tables => some tables
  | _ => none

end Call

/-- The binding and the workspace after calls, one after another. -/
def afterCalls [Room] (calls : List Call) (s : Binding f × Workspace) : Binding f × Workspace :=
  calls.foldl (fun s c => c.after s) s

/-- The contents that calls find in the file, each in the files as they are by then. -/
def found [Room] : List Call → Binding f × Workspace → List f.Content
  | [], _ => []
  | c :: calls, s => (c.found? s).toList ++ found calls (c.after s)

/-! ### One call -/

/-- A reading keeps what it finds in the file if nothing was kept, and no other content. Where it ends
in a fault or reports a refusal, nothing was kept and there was nothing to find. -/
theorem loadDisk_cases [Room] (b : Binding f) (w : Workspace) :
    (∃ e u, b.loadDisk w = .error e u ∧ b.disk = none ∧ b.offer w.files = none) ∨
    ∃ transfer u, b.loadDisk w = .ok (transfer, { b with disk := b.disk.or (b.offer w.files) }) u ∧
      (transfer.success = false → b.disk = none ∧ b.offer w.files = none) := by
  cases hdisk : b.disk with
  | some content =>
    right
    obtain ⟨u, hload⟩ := loadDisk_of_some (w := w) hdisk
    rw [Option.some_or, ← hdisk]
    exact ⟨b.done 0, u, hload, nofun⟩
  | none =>
    have hsame : { b with disk := none } = b := by rw [← hdisk]
    rw [Option.none_or]
    cases hread : w.files.read b.path with
    | error e =>
      have hoffer : b.offer w.files = none := by simp only [offer, hread]
      obtain ⟨u, hload⟩ := loadDisk_of_error hdisk hread
      rw [hoffer, hsame]
      split at hload
      · right
        exact ⟨_, u, hload, fun _ => ⟨rfl, rfl⟩⟩
      · left
        exact ⟨_, u, hload, rfl, rfl⟩
    | ok text =>
      have hload := loadDisk_of_text hdisk hread
      cases hparse : Content.parse f text with
      | error e =>
        rw [hparse] at hload
        left
        exact ⟨_, _, hload, rfl, by simp only [offer, hread, hparse]⟩
      | ok content =>
        have hoffer : b.offer w.files = content := by simp only [offer, hread, hparse]
        rw [hparse] at hload
        right
        rw [hoffer]
        exact ⟨_, _, hload, nofun⟩

/-- What one call does to the contents that are kept. -/
theorem Call.after_fst [Room] (c : Call) (s : Binding f × Workspace) :
    (c.after s).1 = { s.1 with
      disk := s.1.disk.or (c.found? s)
      database := (c.tables?.map s.1.contentOf).or s.1.database } := by
  obtain ⟨b, w⟩ := s
  cases c with
  | write tables =>
    have hkept : ((Call.write tables).after (b, w)).1 = b := by
      rw [after, perform]
      cases hwrite : b.write tables w with
      | ok transfer u => rw [bind_of_eq_ok hwrite]; rfl
      | error e u => rw [bind_of_eq_error hwrite]
    rw [hkept]
    simp only [found?, tables?, Option.or_none, Option.map_none, Option.none_or]
  | loadDisk =>
    rw [after, perform, found?]
    rcases b.loadDisk_cases w with ⟨e, u, hload, hdisk, hoffer⟩ | ⟨transfer, u, hload, -⟩
    · rw [bind_of_eq_error hload]
      dsimp only
      rw [hoffer, Option.or_none]
      rfl
    · rw [bind_of_eq_ok hload]
      rfl
  | loadDatabase tables =>
    simp only [found?, Option.or_none]
    rfl
  | render =>
    simp only [found?, Option.or_none]
    rfl
  | others files =>
    simp only [found?, Option.or_none]
    rfl

/-! ### Histories -/

theorem afterCalls_append [Room] (calls more : List Call) (s : Binding f × Workspace) :
    afterCalls (calls ++ more) s = afterCalls more (afterCalls calls s) :=
  List.foldl_append

/-- What calls do to the contents that are kept. -/
theorem afterCalls_fst [Room] (calls : List Call) (s : Binding f × Workspace) :
    (afterCalls calls s).1 = { s.1 with
      disk := s.1.disk.or (found calls s).head?
      database := ((calls.filterMap Call.tables?).getLast?.map s.1.contentOf).or s.1.database } := by
  induction calls generalizing s with
  | nil =>
    rw [found, List.head?_nil, Option.or_none]
    rfl
  | cons c calls ih =>
    have hdisk : (s.1.disk.or (c.found? s)).or (found calls (c.after s)).head? =
        s.1.disk.or (found (c :: calls) s).head? := by
      rw [found, List.head?_append, Option.head?_toList, Option.or_assoc]
    have hdatabase : ((calls.filterMap Call.tables?).getLast?.map s.1.contentOf).or
          ((c.tables?.map s.1.contentOf).or s.1.database) =
        (((c :: calls).filterMap Call.tables?).getLast?.map s.1.contentOf).or s.1.database := by
      rw [← Option.or_assoc, ← Option.map_or]
      cases htables : c.tables? with
      | none => rw [List.filterMap_cons_none htables, Option.or_none]
      | some tables =>
        rw [List.filterMap_cons_some htables, List.getLast?_cons]
        cases (calls.filterMap Call.tables?).getLast? <;> rfl
    have hrest := ih (c.after s)
    rw [c.after_fst s] at hrest
    rw [← hdisk, ← hdatabase]
    exact hrest

/-- What a binding keeps through calls. The content of the file is the one that was kept before, or else
the first that a reading found, and it stays; the one made from a database is made from the last tables
that were given. Writing and showing change neither, and so does a reading that ends in a fault, reports a
refusal or finds no content. -/
structure Remembers [Room] (calls : List Call) (s : Binding f × Workspace) : Prop where
  disk : (afterCalls calls s).1.disk = s.1.disk.or (found calls s).head?
  database : (afterCalls calls s).1.database =
    ((calls.filterMap Call.tables?).getLast?.map s.1.contentOf).or s.1.database
  stays : ∀ content more, (afterCalls calls s).1.disk = some content →
    (afterCalls (calls ++ more) s).1.disk = some content
  written : ∀ tables, (afterCalls (calls ++ [.write tables]) s).1 = (afterCalls calls s).1
  shown : (afterCalls (calls ++ [.render]) s).1 = (afterCalls calls s).1
  faulted : ∀ e u, (afterCalls calls s).1.loadDisk (afterCalls calls s).2 = .error e u →
    (afterCalls (calls ++ [.loadDisk]) s).1 = (afterCalls calls s).1
  refused : ∀ transfer loaded u,
    (afterCalls calls s).1.loadDisk (afterCalls calls s).2 = .ok (transfer, loaded) u →
      transfer.success = false → loaded = (afterCalls calls s).1
  unusable : (afterCalls calls s).1.offer (afterCalls calls s).2.files = none →
    (afterCalls (calls ++ [.loadDisk]) s).1 = (afterCalls calls s).1

/-- Whatever calls come, and whatever becomes of the files between them, a binding keeps these contents.
One that is new keeps none at first. -/
theorem remembers_afterCalls [Room] (calls : List Call) (s : Binding f × Workspace) : Remembers calls s := by
  have hone : ∀ c : Call, c.found? (afterCalls calls s) = none → c.tables? = none →
      (afterCalls (calls ++ [c]) s).1 = (afterCalls calls s).1 := by
    intro c hfound htables
    rw [afterCalls_append]
    refine (c.after_fst (afterCalls calls s)).trans ?_
    rw [hfound, htables, Option.or_none]
    rfl
  have hcases := loadDisk_cases (afterCalls calls s).1 (afterCalls calls s).2
  refine ⟨?_, ?_, ?_, ?_, ?_, ?_, ?_, ?_⟩
  · rw [afterCalls_fst]
  · rw [afterCalls_fst]
  · intro content more hkept
    rw [afterCalls_append, afterCalls_fst, hkept]
    rfl
  · exact fun tables => hone (.write tables) rfl rfl
  · exact hone .render rfl rfl
  · intro e u hload
    rcases hcases with ⟨_, _, -, -, hoffer⟩ | ⟨transfer, v, hok, -⟩
    · exact hone .loadDisk hoffer rfl
    · rw [hload] at hok
      cases hok
  · intro transfer loaded u hload hfailed
    rcases hcases with ⟨_, _, herror, -⟩ | ⟨transfer', v, hok, hnone⟩
    · rw [hload] at herror
      cases herror
    · rw [hload] at hok
      cases hok
      rw [(hnone hfailed).2, Option.or_none]
  · exact fun hoffer => hone .loadDisk hoffer rfl

section
open scoped Room

/-- The file is missing at first, then holds null, an array, and something else. -/
example :
    let path : Path := ⟨.slash, ["a.json"]⟩
    let holding (text : String) : Call := .others ⟨[(["a.json"], .file (Text.encode text.toList))], []⟩
    (afterCalls [.loadDisk, holding "null", .loadDisk, holding "[1]", .loadDisk, .loadDatabase [],
        holding "\x7b", .loadDisk] ({ path := path : Binding .json }, .bare)).1 =
      { path := path, disk := some (.arr [.int 1]), database := some (Json.ofTables []) } := by
  rfl

end

end Binding

end CatalogSync
