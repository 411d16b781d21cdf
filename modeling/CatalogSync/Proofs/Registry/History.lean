import CatalogSync.Proofs.Registry.Basic

/-!
Histories of a registry. Its calls may go well or fail, in any order; the addresses of its entries stay
distinct and not blank, and whenever a call tells that the file was written, the file gives back the
entries as they are.
-/

namespace CatalogSync

namespace Registry

variable {r r' : Registry} {w w' : Workspace} {s : Registry × Workspace}

/-- Binds a file to a format of the entry at a place. -/
def rebindAt (place : Nat) (f : Format) (path : LooseText) : Registry.Act Unit := do
  let r ← Act.current
  match r.entries[place]? with
  | none => return
  | some e =>
    let e ← Act.onWorkspace (CatalogSync.Act.ofExcept (e.bind f path))
    Act.put { r with entries := r.entries.set place e }

/-- What is asked of a registry. An entry that is added is a sound one, and a file may be bound to
any entry, wherever it stands. -/
inductive Call where
  | load
  | add (e : DatabaseEntry) (sound : e.Sound)
  | remove (name : String)
  | save
  | rebind (place : Nat) (f : Format) (path : LooseText)

/-- Does what is asked of a registry, and tells whether its file was written. -/
def Call.perform [Room] : Call → Registry.Act Bool
  | .load => do
    Registry.load
    return false
  | .add e _ => Registry.add e
  | .remove name => Registry.remove name
  | .save => do
    let _ ← Registry.save
    return true
  | .rebind place f path => do
    rebindAt place f path
    return false

/-- What calls leave, one after another, whether they go well or fail. -/
def afterCalls [Room] (calls : List Call) (s : Registry × Workspace) : Registry × Workspace :=
  calls.foldl (fun s c => left (c.perform s)) s

/-! ### One call -/

/-- Another registry is put in the place of the current one and written; that its file was written is
told only after it was. -/
theorem replaced_cases [Room] (r r' : Registry) (ns : List Note) (w : Workspace) :
    let act : Registry.Act Bool := do
      Act.put r'
      let _ ← Registry.save
      Act.notes ns
      return true
    (left (act (r, w))).1 = r' ∧ ∀ s, act (r, w) = .ok true s → s.1.HeldBy s.2.files := by
  intro act
  have hact : act (r, w) = (do
      let _ ← Registry.save
      Act.notes ns
      return true : Registry.Act Bool) (r', w) := bind_of_eq_ok (put_apply r r' w)
  rw [hact]
  cases hsave : Registry.save (r', w) with
  | error fault t =>
    have hleft := left_save r' w
    rw [hsave] at hleft
    rw [bind_of_eq_error hsave]
    exact ⟨hleft, fun s h => by cases h⟩
  | ok n t =>
    obtain ⟨hfirst, hheld⟩ := save_of_eq_ok hsave
    rw [bind_of_eq_ok hsave]
    refine ⟨hfirst, fun s h => ?_⟩
    cases h
    rw [← hfirst] at hheld
    exact hheld

theorem add_cases [Room] (r : Registry) (e : DatabaseEntry) (w : Workspace) :
    (left (Registry.add e (r, w))).1 = r.offer e ∧
      ∀ s, Registry.add e (r, w) = .ok true s → s.1.HeldBy s.2.files := by
  rw [Registry.add, bind_of_eq_ok (current_apply r w), bind_of_eq_ok (notes_apply _ r w), offer]
  cases haccepts : r.accepts e with
  | false => exact ⟨rfl, fun s h => by cases h⟩
  | true => exact replaced_cases r (r.push e) _ _

theorem remove_cases [Room] (r : Registry) (name : String) (w : Workspace) :
    (left (Registry.remove name (r, w))).1 = r.erase name ∧
      ∀ s, Registry.remove name (r, w) = .ok true s → s.1.HeldBy s.2.files := by
  rw [Registry.remove, bind_of_eq_ok (current_apply r w)]
  cases hfind : r.find? name with
  | none =>
    rw [erase_eq_self hfind]
    exact ⟨rfl, fun s h => by cases h⟩
  | some e => exact replaced_cases r (r.erase name) _ w

theorem rebindAt_cases (r : Registry) (place : Nat) (f : Format) (path : LooseText)
    (w : Workspace) : left (rebindAt place f path (r, w)) = (r, w) ∨ ∃ d e, r.entries[place]? = some d ∧
      d.bind f path = .ok e ∧
      left (rebindAt place f path (r, w)) = ({ r with entries := r.entries.set place e }, w) := by
  rw [rebindAt, bind_of_eq_ok (current_apply r w)]
  cases hplace : r.entries[place]? with
  | none => exact .inl rfl
  | some d =>
    have hstep := onWorkspace_ofExcept (d.bind f path) r w
    dsimp only
    cases hbind : d.bind f path with
    | error fault =>
      rw [hbind] at hstep
      rw [bind_of_eq_error hstep]
      exact .inl rfl
    | ok e =>
      rw [hbind] at hstep
      rw [bind_of_eq_ok hstep]
      exact .inr ⟨d, e, rfl, hbind, rfl⟩

/-- A call keeps the registry consistent and at its path, and the file that it tells to be written
holds the registry. -/
theorem Call.perform_cases [Room] (c : Call) (h : r.Consistent) (w : Workspace) :
    ((left (c.perform (r, w))).1.Consistent ∧ (left (c.perform (r, w))).1.path = r.path) ∧
      ∀ s, c.perform (r, w) = .ok true s → s.1.HeldBy s.2.files := by
  cases c with
  | load =>
    obtain ⟨hconsistent, hpath, -⟩ := left_load r w
    rw [perform, left_bind_pure]
    refine ⟨⟨hconsistent, hpath⟩, fun s hs => ?_⟩
    cases (bind_pure_eq_ok_iff.1 hs).2
  | add e sound =>
    obtain ⟨hleft, hheld⟩ := add_cases r e w
    rw [perform, hleft]
    exact ⟨⟨h.offer sound, path_offer r e⟩, hheld⟩
  | remove name =>
    obtain ⟨hleft, hheld⟩ := remove_cases r name w
    rw [perform, hleft]
    exact ⟨⟨h.erase name, rfl⟩, hheld⟩
  | save =>
    rw [perform, left_bind_pure, left_save]
    refine ⟨⟨h, rfl⟩, fun s hs => ?_⟩
    obtain ⟨⟨n, hsave⟩, -⟩ := bind_pure_eq_ok_iff.1 hs
    obtain ⟨hfirst, hheld⟩ := save_of_eq_ok hsave
    rw [hfirst]
    exact hheld
  | rebind place f path =>
    rw [perform, left_bind_pure]
    refine ⟨?_, fun s hs => ?_⟩
    · rcases rebindAt_cases r place f path w with hleft | ⟨d, e, hplace, hbind, hleft⟩
      · rw [hleft]
        exact ⟨h, rfl⟩
      · rw [hleft]
        have hurl : e.url = d.url := by
          obtain ⟨p, -, -, he⟩ := DatabaseEntry.bind_eq_ok_iff.1 hbind
          rw [he]
        have hsound := (h.sound d (List.mem_of_getElem? hplace)).bind hbind
        obtain ⟨hlt, rfl⟩ := List.getElem?_eq_some_iff.1 hplace
        have hentries : r.entries = r.entries.take place ++ r.entries[place] ::
            r.entries.drop (place + 1) := by
          rw [List.getElem_cons_drop, List.take_append_drop]
        have hswap := h.swap hentries hurl hsound
        rw [List.set_eq_take_append_cons_drop, if_pos hlt]
        exact ⟨hswap, rfl⟩
    · cases (bind_pure_eq_ok_iff.1 hs).2

/-! ### Histories -/

/-- The registry stays consistent through all calls. -/
theorem afterCalls_consistent [Room] (calls : List Call) (h : s.1.Consistent) :
    (afterCalls calls s).1.Consistent ∧ (afterCalls calls s).1.path = s.1.path := by
  induction calls generalizing s with
  | nil => exact ⟨h, rfl⟩
  | cons c calls ih =>
    obtain ⟨⟨hconsistent, hpath⟩, -⟩ := c.perform_cases h s.2
    obtain ⟨hafter, hsame⟩ := ih hconsistent
    exact ⟨hafter, hsame.trans hpath⟩

/-- Through any calls, going well or failing, from any files at all, the addresses of the entries are
distinct and not blank; and where the last call tells that the file was written, a registry that is
read from the same path has the same entries in the same order. -/
theorem load_afterCalls [Room] (path : Path) (w : Workspace) (calls : List Call) :
    ((afterCalls calls ({ path := path }, w)).1.entries.map (·.url)).Nodup ∧
    (∀ e ∈ (afterCalls calls ({ path := path }, w)).1.entries, isBlankUrl e.url = false) ∧
    ∀ (c : Call) (r : Registry) (u : Workspace),
      c.perform (afterCalls calls ({ path := path }, w)) = .ok true (r, u) →
        ∃ v, Registry.load ({ path := path }, u) = .ok () ({ path := path, entries := r.entries }, v) := by
  obtain ⟨hconsistent, hpath⟩ := afterCalls_consistent (s := ({ path := path }, w)) calls
    (consistent_empty path)
  refine ⟨hconsistent.distinct, hconsistent.notBlank, fun c r u hperform => ?_⟩
  obtain ⟨⟨hafter, hsame⟩, hheld⟩ := c.perform_cases hconsistent _
  rw [hperform] at hafter hsame
  have hrpath : r.path = path := hsame.trans hpath
  obtain ⟨v, hload, -⟩ := (hheld (r, u) hperform).load hafter []
  rw [hrpath] at hload
  exact ⟨v, hload.trans (by rw [← hrpath])⟩

section
open scoped Room

/-- An entry with quotes and ends of lines in its name and address. -/
def shopEntry : DatabaseEntry where
  name := "shop \"A\""
  url := "mysql://host/shop\r\n"

theorem shopEntry_sound : shopEntry.Sound where
  name := by decide
  paths _ h := absurd h List.not_mem_nil

/-- The registry is read, an entry is added twice, a file is bound to it under a path that is none and
under one that will do, and an entry that is not there is taken out. -/
def shopCalls : List Call := [.load, .add shopEntry shopEntry_sound, .add shopEntry shopEntry_sound,
  .rebind 0 .json "", .rebind 0 .json "out\\shop.json", .remove "shop"]

theorem load_afterCalls_shop : ∃ r u, Call.save.perform
      (afterCalls shopCalls ({ path := ⟨.here, ["data", "session.json"]⟩ }, .bare)) = .ok true (r, u) ∧
    r.entries = [{ shopEntry with mappings := [⟨.json, "out\\shop.json"⟩] }] ∧
    ∃ v, Registry.load ({ path := ⟨.here, ["data", "session.json"]⟩ }, u) =
      .ok () ({ path := ⟨.here, ["data", "session.json"]⟩, entries := r.entries }, v) := by
  have hsaved : (match Call.save.perform
      (afterCalls shopCalls ({ path := ⟨.here, ["data", "session.json"]⟩ }, .bare)) with
    | .ok written (r, _) =>
      written && r.entries == [{ shopEntry with mappings := [⟨.json, "out\\shop.json"⟩] }]
    | .error _ _ => false) = true := by
    decide +kernel
  split at hsaved
  next written r u hsave =>
    obtain ⟨rfl, hentries⟩ := Bool.and_eq_true_iff.1 hsaved
    exact ⟨r, u, hsave, eq_of_beq hentries,
      (load_afterCalls _ .bare shopCalls).2.2 .save r u hsave⟩
  next => cases hsaved

end

end Registry

end CatalogSync
