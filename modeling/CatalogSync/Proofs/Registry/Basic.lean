import CatalogSync.Proofs.Files.Tree
import CatalogSync.Proofs.Json.Written
import CatalogSync.Proofs.Registry.Entry
import CatalogSync.Proofs.Workspace
import CatalogSync.Registry.Basic

/-!
The registry and its file. Whatever is done with a registry, its entries have addresses of their own,
none of them blank, so that the entries which its file keeps are all accepted when the file is read.
-/

namespace CatalogSync

namespace DatabaseEntry

/-- Of all texts of an entry, halves can stand in its address alone. -/
theorem any_isBroken_texts (e : DatabaseEntry) : e.toJson.texts.any (·.isBroken) = e.url.isBroken := by
  have files : (Json.arr (e.mappings.map (·.toJson))).texts.any (·.isBroken) = false := by
    rw [Json.texts, Json.textsOfItems_eq, List.flatMap_map, List.any_flatMap, List.any_eq_false]
    simp [DiskMapping.toJson, Json.texts, Json.textsOfMembers]
  rw [toJson, Json.texts]
  simp only [Json.textsOfMembers, List.any_cons, List.any_append, files]
  simp [Json.texts]

end DatabaseEntry

namespace Registry

variable {r : Registry} {e : DatabaseEntry} {w : Workspace}

/-- The entries of the registry are sound, and their addresses are distinct and not blank. -/
structure Consistent (r : Registry) : Prop where
  distinct : (r.entries.map (·.url)).Nodup
  notBlank : ∀ e ∈ r.entries, isBlankUrl e.url = false
  sound : ∀ e ∈ r.entries, e.Sound

theorem consistent_empty (path : Path) : Consistent { path := path } where
  distinct := List.nodup_nil
  notBlank _ h := absurd h List.not_mem_nil
  sound _ h := absurd h List.not_mem_nil

theorem accepts_iff : r.accepts e = true ↔
    isBlankUrl e.url = false ∧ e.url ∉ r.entries.map (·.url) := by
  rw [accepts, Bool.and_eq_true, Bool.not_eq_true', findUrl?, Option.isNone_iff_eq_none,
    List.find?_eq_none]
  simp

theorem named?_text (r : Registry) (name : String) : r.named? (.text name) = r.find? name := rfl

theorem named?_eq_some_iff {name : LooseText} :
    r.named? name = some e ↔ name = .text e.name ∧ r.find? e.name = some e := by
  cases name with
  | broken codes halved => exact iff_of_false nofun nofun
  | text n =>
    rw [named?_text, LooseText.text.injEq]
    constructor
    · intro h
      have hname : e.name = n := by simpa using List.find?_some h
      exact ⟨hname.symm, by rw [hname]; exact h⟩
    · rintro ⟨rfl, h⟩
      exact h

/-- Entries are put in the order of their names, those of one name as they stood. -/
structure Ordered (es es' : List DatabaseEntry) : Prop where
  perm : es'.Perm es
  byName : es'.Pairwise fun a b => a.name ≤ b.name
  stable : ∀ name, es'.filter (·.name = name) = es.filter (·.name = name)

theorem ordered_sorted (r : Registry) : Ordered r.entries r.sorted := by
  have htrans : ∀ a b c : DatabaseEntry, decide (a.name ≤ b.name) → decide (b.name ≤ c.name) →
      decide (a.name ≤ c.name) := by
    intro a b c hab hbc
    exact decide_eq_true (String.le_trans (of_decide_eq_true hab) (of_decide_eq_true hbc))
  have htotal : ∀ a b : DatabaseEntry, (decide (a.name ≤ b.name) || decide (b.name ≤ a.name)) := by
    intro a b
    simpa using String.le_total a.name b.name
  have hperm : r.sorted.Perm r.entries := List.mergeSort_perm _ _
  refine ⟨hperm, (List.pairwise_mergeSort htrans htotal r.entries).imp of_decide_eq_true, ?_⟩
  intro name
  have hsame : (r.entries.filter (·.name = name)).Pairwise fun a b => decide (a.name ≤ b.name) := by
    refine List.pairwise_of_forall_mem_list fun a ha b hb => ?_
    rw [of_decide_eq_true (List.mem_filter.1 ha).2, of_decide_eq_true (List.mem_filter.1 hb).2]
    exact decide_eq_true (String.le_refl name)
  have hsublist : (r.entries.filter (·.name = name)).Sublist (r.sorted.filter (·.name = name)) := by
    have hkept := List.sublist_mergeSort htrans htotal hsame List.filter_sublist
    have hfiltered := hkept.filter fun e => e.name = name
    simpa only [List.filter_filter, Bool.and_self, sorted] using hfiltered
  exact (hsublist.eq_of_length (hperm.filter _).length_eq.symm).symm

/-! ### Steps of operations -/

theorem current_apply (r : Registry) (w : Workspace) : Act.current (r, w) = .ok r (r, w) := rfl

theorem put_apply (r r' : Registry) (w : Workspace) : Act.put r' (r, w) = .ok () (r', w) := rfl

theorem notes_apply (ns : List Note) (r : Registry) (w : Workspace) :
    Act.notes ns (r, w) = .ok () (r, w.noting ns) := rfl

theorem onWorkspace_of_ok {α : Type} {act : CatalogSync.Act α} {a : α} {w u : Workspace}
    (h : act w = .ok a u) (r : Registry) : Act.onWorkspace act (r, w) = .ok a (r, u) := by
  rw [Act.onWorkspace, h]

theorem onWorkspace_of_error {α : Type} {act : CatalogSync.Act α} {e : Fault} {w u : Workspace}
    (h : act w = .error e u) (r : Registry) : Act.onWorkspace act (r, w) = .error e (r, u) := by
  rw [Act.onWorkspace, h]

theorem onWorkspace_ofExcept {α : Type} (x : Except Fault α) (r : Registry) (w : Workspace) :
    Act.onWorkspace (CatalogSync.Act.ofExcept x) (r, w) = match x with
      | .ok a => .ok a (r, w)
      | .error e => .error e (r, w) := by
  cases x <;> rfl

/-! ### Changes of the list -/

theorem Consistent.push (h : r.Consistent) (he : e.Sound) (haccepts : r.accepts e = true) :
    (r.push e).Consistent := by
  obtain ⟨hblank, hnew⟩ := accepts_iff.1 haccepts
  refine ⟨?_, ?_, ?_⟩
  · rw [Registry.push, List.map_append, List.nodup_append]
    refine ⟨h.distinct, List.nodup_singleton _, fun a ha b hb hab => hnew ?_⟩
    have hurl : b = e.url := List.mem_singleton.1 hb
    rw [← hurl, ← hab]
    exact ha
  · intro d hd
    rcases List.mem_append.1 hd with hd | hd
    · exact h.notBlank d hd
    · rw [List.mem_singleton.1 hd]
      exact hblank
  · intro d hd
    rcases List.mem_append.1 hd with hd | hd
    · exact h.sound d hd
    · rw [List.mem_singleton.1 hd]
      exact he

theorem Consistent.offer (h : r.Consistent) (he : e.Sound) : (r.offer e).Consistent := by
  rw [Registry.offer]
  split
  next haccepts => exact h.push he haccepts
  next => exact h

theorem Consistent.of_sublist {entries : List DatabaseEntry} (h : r.Consistent)
    (hsub : entries.Sublist r.entries) : Consistent { r with entries := entries } where
  distinct := (hsub.map _).nodup h.distinct
  notBlank d hd := h.notBlank d (hsub.subset hd)
  sound d hd := h.sound d (hsub.subset hd)

theorem Consistent.erase (h : r.Consistent) (name : String) : (r.erase name).Consistent :=
  h.of_sublist List.eraseP_sublist

/-- Where an entry of a name is there, the first such entry is taken out. -/
theorem exists_erase {name : String} (h : (r.find? name).isSome) :
    ∃ front d back, r.entries = front ++ d :: back ∧ (∀ c ∈ front, c.name ≠ name) ∧ d.name = name ∧
      r.erase name = { r with entries := front ++ back } := by
  obtain ⟨e, he⟩ := Option.isSome_iff_exists.1 h
  have hname : e.name = name := by simpa using List.find?_some he
  obtain ⟨d, front, back, hfront, hd, hentries, herase⟩ :=
    List.exists_of_eraseP (p := fun d => d.name = name) (List.mem_of_find?_eq_some he)
      (by simpa using hname)
  refine ⟨front, d, back, hentries, fun c hc => ?_, by simpa using hd, by rw [erase, herase]⟩
  simpa using hfront c hc

theorem erase_eq_self {name : String} (h : r.find? name = none) : r.erase name = r := by
  rw [erase, List.eraseP_of_forall_not fun d hd => List.find?_eq_none.1 h d hd]

/-- An entry with the same address may stand in the place of another. -/
theorem Consistent.swap {front back : List DatabaseEntry} {d : DatabaseEntry} (h : r.Consistent)
    (hentries : r.entries = front ++ d :: back) (hurl : e.url = d.url) (he : e.Sound) :
    Consistent { r with entries := front ++ e :: back } := by
  have hmem : ∀ x ∈ front ++ e :: back, x ∈ r.entries ∨ x = e := by
    intro x hx
    rw [hentries]
    simp only [List.mem_append, List.mem_cons] at hx ⊢
    tauto
  refine ⟨?_, fun x hx => ?_, fun x hx => ?_⟩
  · have hdistinct := h.distinct
    rw [hentries, List.map_append, List.map_cons] at hdistinct
    rw [List.map_append, List.map_cons, hurl]
    exact hdistinct
  · rcases hmem x hx with hx | rfl
    · exact h.notBlank x hx
    · rw [hurl]
      exact h.notBlank d (by simp [hentries])
  · rcases hmem x hx with hx | rfl
    · exact h.sound x hx
    · exact he

/-! ### Reading -/

/-- Reading items keeps a registry consistent, also where it stops half way. -/
theorem Consistent.addItems (h : r.Consistent) (items : List Json) :
    (r.addItems items).1.Consistent := by
  induction items generalizing r with
  | nil => exact h
  | cons item items ih =>
    rw [Registry.addItems]
    split
    next e he => exact ih (h.offer (DatabaseEntry.sound_of_decoder he))
    next => exact h

theorem path_offer (r : Registry) (e : DatabaseEntry) : (r.offer e).path = r.path := by
  rw [offer]
  split <;> rfl

theorem path_addItems (r : Registry) (items : List Json) : (r.addItems items).1.path = r.path := by
  induction items generalizing r with
  | nil => rfl
  | cons item items ih =>
    rw [addItems]
    split
    next e he =>
      rw [ih, path_offer]
    next => rfl

/-- The entries of a consistent registry are all accepted, one after another. -/
theorem addItems_map (known : Registry) {es : List DatabaseEntry}
    (h : Consistent { known with entries := known.entries ++ es }) :
    known.addItems (es.map (·.toJson)) =
      ({ known with entries := known.entries ++ es }, .ok ()) := by
  induction es generalizing known with
  | nil => simp [addItems]
  | cons e es ih =>
    have hmem : e ∈ known.entries ++ e :: es := by simp
    have haccepts : known.accepts e = true := by
      refine accepts_iff.2 ⟨h.notBlank e hmem, fun hknown => ?_⟩
      have hdistinct := h.distinct
      rw [List.map_append, List.nodup_append] at hdistinct
      exact hdistinct.2.2 _ hknown _ List.mem_cons_self rfl
    have hpush : (known.push e).entries ++ es = known.entries ++ e :: es := by simp [push]
    rw [List.map_cons, addItems, (h.sound e hmem).decoder_toJson]
    simp only [offer, haccepts, if_true]
    rw [ih _ (by rw [hpush]; exact h), hpush]
    rfl

/-- The step of reading in which the file is taken for items. -/
theorem itemsStep_apply [Room] (r : Registry) (path : Path) (w : Workspace) :
    Act.onWorkspace (do CatalogSync.Act.ofExcept (itemsOf path (← CatalogSync.Act.readText path)))
      (r, w) = match w.files.read path with
        | .error e => .error (.file e) (r, w.noting [])
        | .ok text => match itemsOf path text with
          | .error e => .error e (r, w.noting [])
          | .ok items => .ok items (r, w.noting []) := by
  rw [Act.onWorkspace]
  cases hread : w.files.read path with
  | error e => simp only [bind_of_eq_error (CatalogSync.Act.readText_of_error hread)]
  | ok text =>
    simp only [bind_of_eq_ok (CatalogSync.Act.readText_of_read hread)]
    cases itemsOf path text <;> rfl

/-- What reading the file of a registry comes to: the files stay as they are. -/
theorem exists_load [Room] (r : Registry) (w : Workspace) : ∃ u, u.files = w.files ∧
    Registry.load (r, w) = match w.files.probe r.path with
      | .error e => .error (.file e) ({ r with entries := [] }, u)
      | .ok none => .ok () ({ r with entries := [] }, u)
      | .ok (some _) => match w.files.read r.path with
        | .error e => .error (.file e) ({ r with entries := [] }, u)
        | .ok text => match itemsOf r.path text with
          | .error e => .error e ({ r with entries := [] }, u)
          | .ok items => match addItems { r with entries := [] } items with
            | (loaded, .error e) => .error e (loaded, u)
            | (loaded, .ok ()) => .ok () (loaded, u) := by
  rw [Registry.load]
  rw [bind_of_eq_ok (current_apply r w)]
  dsimp only
  rw [bind_of_eq_ok (put_apply r _ w)]
  cases hprobe : w.files.probe r.path with
  | error e =>
    refine ⟨w, rfl, bind_of_eq_error ?_⟩
    simp only [Act.fileExists, hprobe]
  | ok entry =>
    cases entry with
    | none =>
      have hexists : Act.fileExists ({ r with entries := [] }, w) =
        .ok false ({ r with entries := [] }, w) := by
          simp only [Act.fileExists, hprobe, Option.isSome_none]
      rw [bind_of_eq_ok hexists]
      exact ⟨w.noting _, rfl, rfl⟩
    | some entry =>
      have hexists : Act.fileExists ({ r with entries := [] }, w) =
        .ok true ({ r with entries := [] }, w) := by
          simp only [Act.fileExists, hprobe, Option.isSome_some]
      rw [bind_of_eq_ok hexists, if_pos rfl]
      have hitems := itemsStep_apply { r with entries := [] } r.path w
      cases hread : w.files.read r.path with
      | error e =>
        rw [hread] at hitems
        exact ⟨w.noting [], rfl, bind_of_eq_error hitems⟩
      | ok text =>
        rw [hread] at hitems
        cases hof : itemsOf r.path text with
        | error e =>
          simp only [hof] at hitems ⊢
          exact ⟨w.noting [], rfl, bind_of_eq_error hitems⟩
        | ok items =>
          simp only [hof] at hitems ⊢
          rw [bind_of_eq_ok hitems]
          rcases addItems { r with entries := [] } items with ⟨loaded, e | _⟩
          · exact ⟨(w.noting []).noting _, rfl, rfl⟩
          · exact ⟨((w.noting []).noting _).noting _, rfl, rfl⟩

/-- What is wrong with an item of a registry file is the entry that it should describe. -/
theorem isValueFault_of_addItems {r loaded : Registry} {items : List Json} {e : Fault}
    (h : r.addItems items = (loaded, .error e)) : e.isValueFault := by
  induction items generalizing r with
  | nil => cases h
  | cons item items ih =>
    rw [addItems] at h
    split at h
    · exact ih h
    · cases h
      rfl

/-- The items of a registry file have no explanation exactly if its values stand too deep in one
another. -/
theorem explains_itemsOf_iff [Room] (path : Path) (text : List Char) :
    (∀ e, itemsOf path text = .error e → e.isSystemFault ∨ e.isValueFault) ↔
      ∀ innermost, Json.read text ≠ .error (.tooDeep innermost) := by
  rw [itemsOf]
  by_cases hempty : text = []
  · subst hempty
    exact iff_of_true nofun nofun
  · rw [if_neg hempty]
    cases Json.read text with
    | ok value => cases value <;> simp [Fault.isValueFault]
    | error fault => cases fault <;> simp [Fault.isValueFault, Fault.isSystemFault]

/-- What is wrong with the file of a registry has an explanation unless its values stand too deep in one
another. -/
theorem explains_load_iff [Room] (r : Registry) (w : Workspace) :
    (∀ e s, Registry.load (r, w) = .error e s → e.isSystemFault ∨ e.isValueFault) ↔
      ∀ text, w.files.read r.path = .ok text →
        ∀ innermost, Json.read text ≠ .error (.tooDeep innermost) := by
  obtain ⟨u, -, hload⟩ := exists_load r w
  cases hread : w.files.read r.path with
  | error fault =>
    refine iff_of_true (fun e s herror => ?_) nofun
    rw [hload] at herror
    simp only [hread] at herror
    split at herror
    next hprobe =>
      cases herror
      rw [FileTree.eq_of_probe_error hprobe]
      exact .inl rfl
    · cases herror
    · cases herror
      rcases FileTree.cases_of_read_error hread with ⟨code, rfl⟩ | rfl | ⟨fault, rfl⟩
      · exact .inl rfl
      · exact .inr rfl
      · exact .inr rfl
  | ok text =>
    obtain ⟨bytes, hprobe⟩ := FileTree.probe_of_read hread
    simp only [hprobe, hread] at hload
    rw [hload]
    simp only [Except.ok.injEq, forall_eq', ← explains_itemsOf_iff r.path]
    cases itemsOf r.path text with
    | error e => simp
    | ok items =>
      dsimp only
      refine iff_of_true (fun e s herror => ?_) nofun
      rcases hadd : addItems { r with entries := [] } items with ⟨loaded, e' | _⟩
      · rw [hadd] at herror
        cases herror
        exact .inr (isValueFault_of_addItems hadd)
      · rw [hadd] at herror
        cases herror

/-! ### The file of the registry -/

/-- The registry can be written exactly if no half stands in an address. -/
theorem halfFault?_eq_none_iff :
    r.halfFault? = none ↔ ∀ e ∈ r.entries, e.url.isBroken = false := by
  rw [halfFault?, LooseText.halfFault?_eq_none_iff, Json.isBroken_written, toJson, Json.texts,
    Json.textsOfItems_eq, List.flatMap_map, List.any_flatMap, List.any_eq_false]
  simp only [DatabaseEntry.any_isBroken_texts, Bool.not_eq_true]

/-- The value of a registry that can be written is plain. -/
theorem plain_toJson (hhalves : r.halfFault? = none) : Json.Plain 4 r.toJson := by
  have hmapping : ∀ m : DiskMapping, Json.Plain 1 m.toJson := by
    intro m
    refine .obj (by simp) ?_ ?_
    · simp
    · simp only [List.forall_mem_cons, List.not_mem_nil, false_implies, implies_true, and_true]
      exact ⟨.str 0 _, .str 0 _⟩
  refine .arr ?_
  simp only [List.forall_mem_map]
  intro e he
  obtain ⟨s, hs⟩ := LooseText.exists_text_of_whole (halfFault?_eq_none_iff.1 hhalves e he)
  refine .obj (by simp) ?_ ?_
  · simp
  · simp only [List.forall_mem_cons, List.not_mem_nil, false_implies, implies_true, and_true, hs]
    refine ⟨.str 2 _, .str 2 _, .arr ?_⟩
    simp only [List.forall_mem_map]
    exact fun m _ => hmapping m

/-- A file holds what is written of a registry. -/
structure HeldBy (r : Registry) (files : FileTree) : Prop where
  bytes : files.bytes r.path = .ok (Text.encode (Json.render r.toJson))
  halves : r.halfFault? = none

theorem HeldBy.read {files : FileTree} (h : r.HeldBy files) :
    files.read r.path = .ok (Json.render r.toJson) :=
  FileTree.read_of_bytes h.bytes ((plain_toJson h.halves).return_not_mem 0)

theorem HeldBy.itemsOf [Room] {files : FileTree} (h : r.HeldBy files) :
    itemsOf r.path (Json.render r.toJson) = .ok (r.entries.map (·.toJson)) := by
  have hplain := plain_toJson h.halves
  obtain ⟨c, rest, htext, -⟩ := hplain.exists_renderAt 0
  have hne : Json.render r.toJson ≠ [] := by
    rw [Json.render, htext]
    exact List.cons_ne_nil _ _
  rw [Registry.itemsOf, if_neg hne, hplain.read_render Room.json_ge]
  rfl

/-- A consistent registry is read back from a file that holds it. -/
theorem HeldBy.load [Room] (h : r.HeldBy w.files) (hr : r.Consistent) (others : List DatabaseEntry) :
    ∃ u, Registry.load ({ path := r.path, entries := others }, w) = .ok () (r, u) ∧
      u.files = w.files := by
  have hadd : addItems { path := r.path } (r.entries.map (·.toJson)) = (r, .ok ()) :=
    addItems_map { path := r.path } hr
  obtain ⟨u, hu, hload⟩ := exists_load { path := r.path, entries := others } w
  simp only [FileTree.probe_of_bytes h.bytes, h.read, h.itemsOf, hadd] at hload
  exact ⟨u, hload, hu⟩

/-- Whatever reading comes to, the registry that it leaves is consistent, and no file has changed. -/
theorem left_load [Room] (r : Registry) (w : Workspace) :
    (left (Registry.load (r, w))).1.Consistent ∧ (left (Registry.load (r, w))).1.path = r.path ∧
      (left (Registry.load (r, w))).2.files = w.files := by
  have hempty : Consistent { r with entries := [] } := consistent_empty r.path
  obtain ⟨u, hu, hload⟩ := exists_load r w
  rw [hload]
  split
  · exact ⟨hempty, rfl, hu⟩
  · exact ⟨hempty, rfl, hu⟩
  split
  · exact ⟨hempty, rfl, hu⟩
  split
  · exact ⟨hempty, rfl, hu⟩
  next items hitems =>
    have hloaded := hempty.addItems items
    have hpath := path_addItems { r with entries := [] } items
    split <;> rename_i hadd <;> rw [hadd] at hloaded hpath <;> exact ⟨hloaded, hpath, hu⟩

/-- What writing the file of a registry comes to. -/
theorem save_apply [Room] (r : Registry) (w : Workspace) : Registry.save (r, w) =
    match CatalogSync.Act.writeText r.path (Json.render r.toJson) r.halfFault? w with
    | .ok n u => .ok n (r, u)
    | .error e u => .error e (r, u) := by
  rw [Registry.save, bind_of_eq_ok (current_apply r w), Act.onWorkspace]
  cases CatalogSync.Act.writeText r.path (Json.render r.toJson) r.halfFault? w <;> rfl

/-- Writing that goes well puts the registry into its file. -/
theorem save_of_eq_ok [Room] {n : Nat} {s : Registry × Workspace} (h : Registry.save (r, w) = .ok n s) :
    s.1 = r ∧ r.HeldBy s.2.files := by
  rw [save_apply] at h
  cases hwrite : CatalogSync.Act.writeText r.path (Json.render r.toJson) r.halfFault? w with
  | error e u => rw [hwrite] at h; cases h
  | ok n u =>
    rw [hwrite] at h
    cases h
    have hfiles := CatalogSync.Act.write_of_writeText hwrite
    exact ⟨rfl, FileTree.bytes_of_write hfiles, (FileTree.write_eq_ok_iff.1 hfiles).1⟩

theorem left_save [Room] (r : Registry) (w : Workspace) : (left (Registry.save (r, w))).1 = r := by
  rw [save_apply]
  split <;> rfl

end Registry

end CatalogSync
