import CatalogSync.Proofs.Registry.History
import Mathlib

/-!
What a registry keeps of a call that ends in a fault. Nothing is taken back: reading leaves the entries
that were accepted by then, adding leaves the new entry in the list, and taking out leaves the list
without the entry.
-/

namespace CatalogSync

namespace Registry

variable {r : Registry} {e : DatabaseEntry} {w : Workspace} {fault : Fault} {s : Registry × Workspace}

/-! ### The entries of a file -/

/-- The entries that items describe, up to the first item that describes none. -/
def leadingEntries : List Json → List DatabaseEntry
  | [] => []
  | item :: rest =>
    match DatabaseEntry.decoder item with
    | .valid e => e :: leadingEntries rest
    | .invalid _ => []

/-- The entries with addresses that are not blank, of each address the first. -/
def firstOfUrls : List DatabaseEntry → List DatabaseEntry
  | [] => []
  | e :: es =>
    if isBlankUrl e.url then firstOfUrls es else e :: (firstOfUrls es).filter (·.url ≠ e.url)

/-- The entries that stand in a registry file in front of the first item that is none; a file that
cannot be read as an array has no entries. -/
def storedIn [Room] (files : FileTree) (path : Path) : List DatabaseEntry :=
  match files.read path with
  | .error _ => []
  | .ok text =>
    match itemsOf path text with
    | .error _ => []
    | .ok items => leadingEntries items

theorem addItems_fst (r : Registry) (items : List Json) :
    (r.addItems items).1 = (leadingEntries items).foldl offer r := by
  induction items generalizing r with
  | nil => rfl
  | cons item items ih =>
    rw [addItems, leadingEntries]
    cases DatabaseEntry.decoder item with
    | valid e => exact ih (r.offer e)
    | invalid faults => rfl

/-- Of entries that are offered one after another, those stay whose address is new and not blank. -/
theorem entries_foldl_offer (es : List DatabaseEntry) (r : Registry) :
    es.foldl offer r = { r with
      entries := r.entries ++ (firstOfUrls es).filter fun e => e.url ∉ r.entries.map (·.url) } := by
  induction es generalizing r with
  | nil => simp [firstOfUrls]
  | cons e es ih =>
    rw [List.foldl_cons, ih, firstOfUrls]
    by_cases hblank : isBlankUrl e.url = true
    · have hoffer : r.offer e = r := if_neg fun h => by
        rw [(accepts_iff.1 h).1] at hblank
        cases hblank
      rw [hoffer, if_pos hblank]
    rw [if_neg hblank]
    by_cases hknown : e.url ∈ r.entries.map (·.url)
    · have hoffer : r.offer e = r := if_neg fun h => (accepts_iff.1 h).2 hknown
      have hother : ∀ d : DatabaseEntry, d.url ∉ r.entries.map (·.url) → d.url ≠ e.url :=
        fun d hd hsame => hd (hsame ▸ hknown)
      rw [hoffer, List.filter_cons_of_neg (by simpa using hknown), List.filter_filter]
      congr 2
      refine List.filter_congr fun d _ => ?_
      by_cases hd : d.url ∈ r.entries.map (·.url)
      · simp [hd]
      · simp [hd, hother d hd]
    · have hoffer : r.offer e = r.push e :=
        if_pos (accepts_iff.2 ⟨eq_false_of_ne_true hblank, hknown⟩)
      rw [hoffer, List.filter_cons_of_pos (by simpa using hknown), List.filter_filter]
      simp only [push, List.append_assoc, List.singleton_append, List.map_append, List.map_cons,
        List.map_nil, List.mem_append, List.mem_singleton, not_or, Bool.decide_and]

/-- Reading, however it ends, leaves the entries of the file that were accepted, whatever there was
before. -/
theorem left_load_fst [Room] (r : Registry) (w : Workspace) :
    (left (Registry.load (r, w))).1 =
      { r with entries := firstOfUrls (storedIn w.files r.path) } := by
  have hunread : ∀ fault, w.files.read r.path = .error fault →
      firstOfUrls (storedIn w.files r.path) = [] := by
    intro fault hread
    rw [storedIn, hread]
    rfl
  obtain ⟨u, -, hload⟩ := exists_load r w
  rw [hload]
  cases hread : w.files.read r.path with
  | error fault =>
    rw [hunread fault hread]
    split <;> rfl
  | ok text =>
    obtain ⟨bytes, hprobe⟩ := FileTree.probe_of_read hread
    simp only [hprobe, storedIn, hread]
    cases itemsOf r.path text with
    | error fault => rfl
    | ok items =>
      have hloaded := addItems_fst { r with entries := [] } items
      rw [entries_foldl_offer] at hloaded
      dsimp only
      split
      all_goals
        next hadd =>
          rw [hadd] at hloaded
          simpa [left] using hloaded

/-- Adding an entry fails only after it was put into the list. -/
theorem fst_of_add_error [Room] (h : Registry.add e (r, w) = .error fault s) :
    s.1 = { r with entries := r.entries ++ [e] } := by
  obtain ⟨hleft, -⟩ := add_cases r e w
  rw [h, offer] at hleft
  by_cases haccepts : r.accepts e
  · rw [if_pos haccepts] at hleft
    exact hleft
  · rw [Registry.add, bind_of_eq_ok (current_apply r w), bind_of_eq_ok (notes_apply _ r w),
      if_neg haccepts] at h
    cases h

/-- Taking out an entry fails only after it was taken from the list. -/
theorem fst_of_remove_error [Room] {name : String} (h : Registry.remove name (r, w) = .error fault s) :
    ∃ front d back, r.entries = front ++ d :: back ∧ (∀ c ∈ front, c.name ≠ name) ∧ d.name = name ∧
      s.1 = { r with entries := front ++ back } := by
  obtain ⟨hleft, -⟩ := remove_cases r name w
  cases hfind : r.find? name with
  | none =>
    have hnone : Registry.remove name (r, w) = .ok false (r, w) := by
      rw [Registry.remove, bind_of_eq_ok (current_apply r w), hfind]
      rfl
    rw [hnone] at h
    cases h
  | some e =>
    obtain ⟨front, d, back, hentries, hfront, hd, herase⟩ :=
      exists_erase (Option.isSome_iff_exists.2 ⟨e, hfind⟩)
    rw [h, herase] at hleft
    exact ⟨front, d, back, hentries, hfront, hd, hleft⟩

/-- Nothing is taken back of a call that ends in a fault. After a reading the entries are those of the
file that were accepted in front of the one that is none, whatever was there before; after an adding
the entry stands behind the others; and after a taking out the first entry of the name is gone. -/
theorem fst_of_fault [Room] (r : Registry) (w : Workspace) :
    (∀ fault s, Registry.load (r, w) = .error fault s →
      s.1 = { r with entries := firstOfUrls (storedIn w.files r.path) }) ∧
    (∀ e fault s, Registry.add e (r, w) = .error fault s →
      s.1 = { r with entries := r.entries ++ [e] }) ∧
    ∀ name fault s, Registry.remove name (r, w) = .error fault s →
      ∃ front d back, r.entries = front ++ d :: back ∧ (∀ c ∈ front, c.name ≠ name) ∧
        d.name = name ∧ s.1 = { r with entries := front ++ back } := by
  refine ⟨?_, ?_, ?_⟩
  · intro fault s hload
    have hleft := left_load_fst r w
    rw [hload] at hleft
    exact hleft
  · intro e fault s hadd
    exact fst_of_add_error hadd
  · intro name fault s hremove
    exact fst_of_remove_error hremove

section
open scoped Room

/-- A registry file with two entries of one address, and an item that is no entry behind them. -/
def brokenText : String :=
  "[\x7b\"name\":\"a\",\"db_url\":\"u\"\x7d,\x7b\"name\":\"b\",\"db_url\":\"u\"\x7d,\x7b\x7d]"

/-- A workspace with that file, and nothing else. -/
def brokenDesk : Workspace :=
  { Workspace.bare with
    files := ⟨[(["home", "s.json"], .file (Text.encode brokenText.toList))], ["home"]⟩ }

theorem fst_of_fault_brokenDesk :
    (∃ fault s, Registry.load ({ path := ⟨.here, ["s.json"]⟩, entries := [shopEntry] }, brokenDesk) =
      .error fault s ∧ s.1.entries = [{ name := "a", url := "u" }]) ∧
    (∃ fault s, Registry.add shopEntry ({ path := ⟨.here, ["s.json", "t.json"]⟩ }, brokenDesk) =
      .error fault s ∧ s.1.entries = [shopEntry]) ∧
    ∃ fault s, Registry.remove shopEntry.name
      ({ path := ⟨.here, ["s.json", "t.json"]⟩, entries := [shopEntry] }, brokenDesk) =
        .error fault s ∧ s.1.entries = [] := by
  refine ⟨?_, ?_, ?_⟩
  · have hread : brokenDesk.files.read ⟨.here, ["s.json"]⟩ = .ok brokenText.toList :=
      FileTree.read_of_bytes rfl (by decide)
    have hitems : itemsOf ⟨.here, ["s.json"]⟩ brokenText.toList =
        .ok [.obj [("name", .str "a"), ("db_url", .str "u")],
          .obj [("name", .str "b"), ("db_url", .str "u")], .obj []] := by cbv
    obtain ⟨bytes, hprobe⟩ := FileTree.probe_of_read hread
    obtain ⟨u, -, hload⟩ := exists_load { path := ⟨.here, ["s.json"]⟩, entries := [shopEntry] } brokenDesk
    simp only [hprobe, hread, hitems] at hload
    refine ⟨_, _, hload, ?_⟩
    rw [(fst_of_fault _ _).1 _ _ hload, storedIn, hread]
    simp only [hitems]
    decide
  · obtain ⟨fault, s, hadd⟩ : ∃ fault s, Registry.add shopEntry
        ({ path := ⟨.here, ["s.json", "t.json"]⟩ }, brokenDesk) = .error fault s := ⟨_, _, rfl⟩
    refine ⟨fault, s, hadd, ?_⟩
    rw [(fst_of_fault _ _).2.1 shopEntry fault s hadd]
    rfl
  · obtain ⟨fault, s, hremove⟩ : ∃ fault s, Registry.remove shopEntry.name
        ({ path := ⟨.here, ["s.json", "t.json"]⟩, entries := [shopEntry] }, brokenDesk) =
          .error fault s := ⟨_, _, rfl⟩
    obtain ⟨front, d, back, hentries, -, -, hleft⟩ :=
      (fst_of_fault _ _).2.2 shopEntry.name fault s hremove
    refine ⟨fault, s, hremove, ?_⟩
    cases front with
    | nil =>
      cases hentries
      rw [hleft]
      rfl
    | cons c front => simp at hentries

/-- A workspace in which a directory stands in the place of the registry file. -/
def blockedDesk : Workspace :=
  { Workspace.bare with files := ⟨[(["home", "s.json"], .directory)], ["home"]⟩ }

/-- Neither reading nor adding nor taking out leaves the list as it was where the call ends in a
fault. -/
theorem fst_of_blockedDesk_ne :
    (∃ fault s, Registry.load ({ path := ⟨.here, ["s.json"]⟩, entries := [shopEntry] }, blockedDesk) =
      .error fault s ∧ s.1.entries ≠ [shopEntry]) ∧
    (∃ fault s, Registry.add shopEntry ({ path := ⟨.here, ["s.json"]⟩ }, blockedDesk) =
      .error fault s ∧ s.1.entries ≠ []) ∧
    ∃ fault s, Registry.remove shopEntry.name
      ({ path := ⟨.here, ["s.json"]⟩, entries := [shopEntry] }, blockedDesk) =
        .error fault s ∧ s.1.entries ≠ [shopEntry] :=
  ⟨⟨_, _, rfl, by decide⟩, ⟨_, _, rfl, by decide⟩, ⟨_, _, rfl, by decide⟩⟩

end

end Registry

end CatalogSync
