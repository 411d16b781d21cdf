import CatalogSync.Proofs.Collect
import CatalogSync.Proofs.Record.Unchecked
import CatalogSync.Proofs.Text.Loose
import CatalogSync.Registry.Draft

/-!
Checked entries as unchecked ones. As long as nothing is set in an entry, it is shown alike and its files
are looked up and bound alike, whether it is checked or not.
-/

namespace CatalogSync

namespace Unchecked

variable {e : DatabaseEntry} {m : DiskMapping} {f : Format}

theorem member_mapping {name : String} {value : Json}
    (hlookup : m.toJson.get? (.text name) = some value) : m.unchecked.member name = .ok (.plain value) := by
  rw [DiskMapping.toJson, Json.get?] at hlookup
  rw [DiskMapping.unchecked, DiskMapping.toJson, member_ofObject, hlookup]
  rfl

theorem member_entry {name : String} {value : Json}
    (hlookup : e.toJson.get? (.text name) = some value) (hmappings : name ≠ "disk_mappings") :
    e.unchecked.member name = .ok (.plain value) := by
  rw [DatabaseEntry.toJson, Json.get?] at hlookup
  rw [DatabaseEntry.unchecked, DatabaseEntry.toJson, member_ofObject, hlookup]
  simp [readPart, hmappings]

/-- The mappings of an entry, as they stand in it. -/
theorem member_mappings (e : DatabaseEntry) : e.unchecked.member "disk_mappings" =
    .ok (ofItems (e.mappings.map (·.unchecked))) := by
  rw [DatabaseEntry.unchecked, DatabaseEntry.toJson, member_ofObject]
  simp [Json.lookup?, readPart, ofArray, Function.comp_def, DiskMapping.unchecked]

theorem mappings_unchecked (e : DatabaseEntry) :
    e.unchecked.mappings = .ok (e.mappings.map (·.unchecked)) := by
  rw [mappings, member_mappings, ok_bind, items_ofItems]

theorem format_unchecked (m : DiskMapping) : m.unchecked.format = .ok (some m.format.word) := by
  have hformat : m.unchecked.member "format" = .ok (.plain (.str m.format.word)) :=
    member_mapping (by simp [DiskMapping.toJson, Json.get?, Json.lookup?])
  have hrecord : m.unchecked.format = (do return some (← m.unchecked.member "format").inline) := rfl
  rw [hrecord, hformat]
  rfl

/-- The first mapping of a format stands in the same place. -/
theorem mappingPlace_unchecked (f : Format) (ms : List DiskMapping) :
    mappingPlace f (ms.map (·.unchecked)) = .ok (ms.findIdx? (·.format = f)) := by
  induction ms with
  | nil => rfl
  | cons m ms ih =>
    have hword : some m.format.word = some f.word ↔ m.format = f := by
      rw [Option.some.injEq]
      cases m.format <;> cases f <;> decide
    rw [List.map_cons, mappingPlace, format_unchecked, ok_bind, ih, ok_bind, List.findIdx?_cons]
    by_cases hformat : m.format = f
    · rw [if_pos (hword.2 hformat), if_pos (decide_eq_true hformat)]
      rfl
    · rw [if_neg (mt hword.1 hformat), if_neg (by simpa using hformat)]
      rfl

/-- The file of a format is found alike. -/
theorem mapping?_unchecked (e : DatabaseEntry) (f : Format) :
    e.unchecked.mapping? f = .ok ((e.mapping? f).map (·.toJson)) := by
  have hcallable : e.unchecked.callable "get_mapping" = .ok () := rfl
  rw [mapping?, hcallable, ok_bind, mappings_unchecked, ok_bind, mappingPlace_unchecked, ok_bind,
    DatabaseEntry.mapping?, List.find?_eq_bind_findIdx?_getElem?, Option.map_bind]
  simp only [List.getElem?_map, Function.comp_def, Option.map_bind, Option.map_map]
  rfl

theorem mappingLine_unchecked (m : DiskMapping) : m.unchecked.mappingLine = .ok (.text m.line) := by
  have hpath : m.unchecked.member "path" = .ok (.plain (.str m.path)) :=
    member_mapping (by simp [DiskMapping.toJson, Json.get?, Json.lookup?])
  rw [mappingLine, format_unchecked, ok_bind]
  dsimp only
  rw [hpath]
  rfl

/-- An entry is shown alike. -/
theorem display_unchecked (e : DatabaseEntry) : e.unchecked.display = .ok e.display := by
  have hcallable : e.unchecked.callable "display" = .ok () := rfl
  have hname : e.unchecked.member "name" = .ok (.plain (.str e.name)) :=
    member_entry (by simp [DatabaseEntry.toJson, Json.get?, Json.lookup?]) (by simp)
  have hurl : e.unchecked.member "db_url" = .ok (.plain (.str e.url)) :=
    member_entry (by simp [DatabaseEntry.toJson, Json.get?, Json.lookup?]) (by simp)
  have hlines : (e.mappings.map (·.unchecked)).mapM mappingLine = .ok (e.mappings.map (.text ·.line)) := by
    rw [List.mapM_map]
    exact mapM_eq_ok_map fun m _ => mappingLine_unchecked m
  rw [display, hcallable, ok_bind, hname, ok_bind, hurl, ok_bind, mappings_unchecked, ok_bind, hlines,
    ok_bind, member_mappings, ok_bind, isTruthy_ofItems, List.isEmpty_map, DatabaseEntry.display]
  refine congrArg Except.ok ?_
  rw [← LooseText.joined_append_texts]
  cases e.mappings with
  | nil => rfl
  | cons m ms =>
    have hsome : (!(m :: ms).isEmpty) = true := rfl
    rw [if_pos hsome, if_neg (List.cons_ne_nil m ms), List.map_map]
    rfl

/-- The mappings of an entry once a file is bound, by the place of the one that was bound before. -/
theorem rebind_eq (f : Format) (path : String) (ms : List DiskMapping) :
    DatabaseEntry.rebind f path ms = match ms.findIdx? (·.format = f) with
      | some i => ms.modify i fun m => { m with path := path }
      | none => ms ++ [⟨f, path⟩] := by
  induction ms with
  | nil => rfl
  | cons m ms ih =>
    rw [DatabaseEntry.rebind, List.findIdx?_cons]
    by_cases hformat : m.format = f
    · rw [if_pos hformat, if_pos (decide_eq_true hformat)]
      rfl
    · rw [if_neg hformat, if_neg (by simpa using hformat), ih]
      cases ms.findIdx? (·.format = f) <;> rfl

theorem withMember_mapping (m : DiskMapping) (path : String) :
    m.unchecked.withMember "path" (.plain (.str (.text path))) = { m with path := path }.unchecked := by
  simp [DiskMapping.unchecked, DiskMapping.toJson, ofObject, withMember, put, readPart]

theorem withMember_entry (e : DatabaseEntry) (ms : List DiskMapping) :
    e.unchecked.withMember "disk_mappings" (ofItems (ms.map (·.unchecked))) =
      { e with mappings := ms }.unchecked := by
  simp [DatabaseEntry.unchecked, DatabaseEntry.toJson, ofObject, withMember, put, readPart, ofArray,
    DiskMapping.unchecked, Function.comp_def]

/-- A file is bound alike. -/
theorem bound_unchecked (e : DatabaseEntry) (f : Format) (path : LooseText) :
    e.unchecked.bound f path = (e.bind f path).map (·.unchecked) := by
  have hcallable : e.unchecked.callable "update_disk_mapping" = .ok () := rfl
  rw [bound, hcallable, ok_bind, mappings_unchecked, ok_bind, DatabaseEntry.bind]
  dsimp only
  rw [mappingPlace_unchecked, ok_bind]
  obtain ⟨push, hpush, happend⟩ := append_ofItems (e.mappings.map (·.unchecked))
  cases hpath : Record.checked "path" Record.someText path with
  | invalid faults =>
    obtain ⟨fault, hfault⟩ : ∃ fault, ∀ {α : Type},
        (Validated.invalid faults : Validated α).toExcept .diskMapping = .error fault := by
      simp only [Validated.toExcept, Validated.toExceptBy]
      cases faults.findSome? (·.kind.halfFault?) with
      | some half => exact ⟨.unencodable half, rfl⟩
      | none => exact ⟨.record .diskMapping faults, rfl⟩
    rw [Validated.map, hfault, hfault]
    cases e.mappings.findIdx? (·.format = f) with
    | some i => rfl
    | none =>
      rw [member_mappings, ok_bind, hpush]
      rfl
  | valid text =>
    have hrebind := rebind_eq f text e.mappings
    have hresult : (Validated.map (fun path => { e with
        mappings := DatabaseEntry.rebind f path e.mappings }) (.valid text)).toExcept .diskMapping =
          .ok { e with mappings := DatabaseEntry.rebind f text e.mappings } := rfl
    have hmodify (i : Nat) : (e.mappings.map (·.unchecked)).modify i
          (·.withMember "path" (.plain (.str (.text text)))) =
        (e.mappings.modify i fun m => { m with path := text }).map (·.unchecked) := by
      refine List.ext_getElem? fun j => ?_
      simp only [List.getElem?_map, List.getElem?_modify]
      by_cases hij : i = j <;> simp [hij, Function.comp_def, withMember_mapping]
    rw [hresult, Except.map, ← withMember_entry e (DatabaseEntry.rebind f text e.mappings), hrebind]
    cases e.mappings.findIdx? (·.format = f) with
    | some i =>
      dsimp only
      rw [← hmodify]
      rfl
    | none =>
      dsimp only
      rw [member_mappings, ok_bind, hpush, List.map_append, List.map_singleton, ← happend]
      rfl

end Unchecked

end CatalogSync
