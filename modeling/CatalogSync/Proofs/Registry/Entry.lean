import CatalogSync.Registry.Entry
import CatalogSync.Proofs.Json.RoundTrip
import CatalogSync.Proofs.Record.Decode

/-!
Entries of the registry as JSON. A sound entry is read back from its value, and every entry that is
read is sound.
-/

namespace CatalogSync

open Record

namespace DiskMapping

theorem decoder_toJson {m : DiskMapping} (h : m.path ≠ "") : decoder m.toJson = .valid m := by
  have hformat : required [("format", .str m.format.word), ("path", .str m.path)] "format"
      (choice Format.ofWord?) = .valid m.format := by
    have hlookup : Json.lookup? [("format", .str m.format.word), ("path", .str m.path)] "format" =
        some (.str m.format.word) := rfl
    rw [required, hlookup]
    simp only [choice, Format.ofWord?_word, Validated.under]
  have hpath : required [("format", .str m.format.word), ("path", .str m.path)] "path" someText =
      .valid m.path := by
    have hlookup : Json.lookup? [("format", .str m.format.word), ("path", .str m.path)] "path" =
        some (.str m.path) := rfl
    rw [required, hlookup]
    simp only [someText_text h, Validated.under]
  rw [toJson, decoder, extensible, hformat, hpath]
  rfl

theorem path_ne_of_decoder {j : Json} {m : DiskMapping} (h : decoder j = .valid m) : m.path ≠ "" := by
  cases j with
  | obj members =>
    rw [decoder, extensible, Validated.functor_map_eq] at h
    obtain ⟨g, path, hg, hpath, rfl⟩ := Validated.seq_eq_valid_iff.1 h
    obtain ⟨format, -, rfl⟩ := Validated.map_eq_valid_iff.1 hg
    obtain ⟨k, -, hk⟩ := exists_of_required hpath
    exact ne_of_someText hk
  | _ => cases h

end DiskMapping

namespace DatabaseEntry

/-- No text of the entry that must not be empty is. -/
structure Sound (e : DatabaseEntry) : Prop where
  name : e.name ≠ ""
  paths : ∀ m ∈ e.mappings, m.path ≠ ""

variable {e : DatabaseEntry}

/-- The members of a value give an entry where its name is not empty. -/
theorem decoder_eq_valid {members : List (LooseText × Json)} {name : String} {url : LooseText}
    {files : List DiskMapping} (hne : name ≠ "")
    (hname : Json.lookup? members "name" = some (.str name))
    (hurl : Json.lookup? members "db_url" = some (.str url))
    (hfiles : optional members "disk_mappings" [] (list DiskMapping.decoder) = .valid files) :
    decoder (.obj members) = .valid { name := name, url := url, mappings := files } := by
  have hname : required members "name" someText = .valid name := by
    rw [required, hname]
    simp only [someText_text hne, Validated.under]
  have hurl : required members "db_url" looseText = .valid url := by
    rw [required, hurl]
    rfl
  rw [decoder, extensible, hname, hurl, hfiles]
  rfl

/-- A sound entry is read back from its value. -/
theorem Sound.decoder_toJson (h : e.Sound) : decoder e.toJson = .valid e := by
  obtain ⟨members, hmembers⟩ : ∃ members, members = [(LooseText.text "name", Json.str e.name),
    (LooseText.text "db_url", .str e.url), (LooseText.text "disk_mappings",
      .arr (e.mappings.map (·.toJson)))] := ⟨_, rfl⟩
  have hfiles : optional members "disk_mappings" [] (list DiskMapping.decoder) =
      .valid e.mappings := by
    have hlookup : Json.lookup? members "disk_mappings" = some (.arr (e.mappings.map (·.toJson))) := by
      rw [hmembers]
      rfl
    rw [Record.optional, hlookup]
    simp only [list_map fun m hm => DiskMapping.decoder_toJson (h.paths m hm), Validated.under]
  rw [toJson, ← hmembers]
  exact decoder_eq_valid h.name (by rw [hmembers]; rfl) (by rw [hmembers]; rfl) hfiles

/-- A name that is not empty and an address give an entry without files. -/
theorem decoder_named {name : String} (h : name ≠ "") (url : LooseText) :
    decoder (.obj [("name", .str name), ("db_url", Json.ofOption Json.str (some url))]) =
      .valid { name := name, url := url } :=
  decoder_eq_valid h rfl rfl rfl

/-- The value of a name and an address gives an entry without files. -/
theorem eq_of_decoder_named {name : LooseText} {url : Option LooseText}
    (h : decoder (.obj [("name", .str name), ("db_url", Json.ofOption Json.str url)]) = .valid e) :
    ∃ n u, name = .text n ∧ n ≠ "" ∧ url = some u ∧ e = { name := n, url := u } := by
  rw [decoder, extensible, Validated.functor_map_eq] at h
  obtain ⟨g, files, hg, hfiles, rfl⟩ := Validated.seq_eq_valid_iff.1 h
  obtain ⟨g', address, hg', haddress, rfl⟩ := Validated.seq_eq_valid_iff.1 hg
  obtain ⟨n, hname, rfl⟩ := Validated.map_eq_valid_iff.1 hg'
  obtain ⟨k, hk, hn⟩ := exists_of_required hname
  obtain ⟨k', hk', ha⟩ := exists_of_required haddress
  cases hk
  cases hk'
  cases hfiles
  have hchecked : checked "name" someText name = .valid n := Validated.under_eq_valid_iff.2 hn
  obtain ⟨hsame, hne⟩ := checked_someText_eq_valid_iff.1 hchecked
  cases url with
  | none => cases ha
  | some given =>
    cases ha
    exact ⟨n, _, hsame, hne, rfl, rfl⟩

/-- An entry that is read is sound. -/
theorem sound_of_decoder {j : Json} (h : decoder j = .valid e) : e.Sound := by
  cases j with
  | obj members =>
    rw [decoder, extensible, Validated.functor_map_eq] at h
    obtain ⟨g, files, hg, hfiles, rfl⟩ := Validated.seq_eq_valid_iff.1 h
    obtain ⟨g', url, hg', hurl, rfl⟩ := Validated.seq_eq_valid_iff.1 hg
    obtain ⟨name, hname, rfl⟩ := Validated.map_eq_valid_iff.1 hg'
    obtain ⟨k, -, hk⟩ := exists_of_required hname
    refine ⟨ne_of_someText hk, ?_⟩
    rcases exists_of_optional hfiles with rfl | ⟨v, -, hv⟩
    · exact fun m hm => absurd hm List.not_mem_nil
    · intro m hm
      obtain ⟨k, hk⟩ := exists_of_list hv m hm
      exact DiskMapping.path_ne_of_decoder hk
  | _ => cases h

/-- A binding is made of the mappings that were there and of one that has the new path. -/
theorem mem_rebind {f : Format} {path : String} {ms : List DiskMapping} {m : DiskMapping}
    (h : m ∈ rebind f path ms) : m.path = path ∨ m ∈ ms := by
  induction ms with
  | nil => exact .inl (by rw [List.mem_singleton.1 h])
  | cons n ms ih =>
    rw [rebind] at h
    split at h
    · rcases List.mem_cons.1 h with rfl | h
      · exact .inl rfl
      · exact .inr (List.mem_cons_of_mem _ h)
    · rcases List.mem_cons.1 h with rfl | h
      · exact .inr List.mem_cons_self
      · exact (ih h).imp_right (List.mem_cons_of_mem _)

theorem bind_eq_ok_iff {d : DatabaseEntry} {f : Format} {path : LooseText} :
    d.bind f path = .ok e ↔
      ∃ p, path = .text p ∧ p ≠ "" ∧ e = { d with mappings := rebind f p d.mappings } := by
  constructor
  · intro h
    obtain ⟨p, hchecked, rfl⟩ := Validated.exists_of_toExcept_map h
    obtain ⟨hpath, hne⟩ := checked_someText_eq_valid_iff.1 hchecked
    exact ⟨p, hpath, hne, rfl⟩
  · rintro ⟨p, rfl, hpath, rfl⟩
    rw [bind, checked_someText_text hpath]
    rfl

/-- An entry that is bound to a file keeps its name and address, and stays sound. -/
theorem Sound.bind {d : DatabaseEntry} {f : Format} {path : LooseText} (h : d.Sound)
    (hbind : d.bind f path = .ok e) : e.Sound := by
  obtain ⟨p, rfl, hpath, rfl⟩ := bind_eq_ok_iff.1 hbind
  refine ⟨h.name, fun m hm => ?_⟩
  rcases mem_rebind hm with hm | hm
  · rw [hm]
    exact hpath
  · exact h.paths m hm

end DatabaseEntry

end CatalogSync
