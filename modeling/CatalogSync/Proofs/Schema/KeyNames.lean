import CatalogSync.Proofs.Collect
import CatalogSync.Proofs.Schema.Parsed
import CatalogSync.Proofs.Text.Pieces
import CatalogSync.Schema.Check

/-!
The names in key directives. Reading a model cuts the list of a key directive where a comma and a space
stand, checking a schema cuts it at each comma. A field whose name holds no comma and that reading marks is
named for the check as well; the other direction holds for the fields that stand in some list with a space
behind each comma next to them.
-/

namespace CatalogSync

open Text (trim words splitOn IsPiece)
open UniqueFlag (extract)

theorem Relation.mem_map_trimmedPieces_iff {name : String} (h : name ≠ "") {pieces : List (List Char)} :
    name ∈ (trimmedPieces pieces).map String.ofList ↔ ∃ p ∈ pieces, trim p = name.toList := by
  rw [trimmedPieces, List.mem_map]
  constructor
  · rintro ⟨piece, hpiece, rfl⟩
    obtain ⟨p, hp, rfl⟩ := List.mem_map.1 (List.mem_of_mem_filter hpiece)
    exact ⟨p, hp, String.toList_ofList.symm⟩
  · rintro ⟨p, hp, htrim⟩
    refine ⟨trim p, List.mem_filter.2 ⟨List.mem_map_of_mem hp, ?_⟩, ?_⟩
    · rw [htrim]
      simpa using h
    · rw [htrim, String.ofList_toList]

theorem not_mem_of_idNamesHere? {s names : List Char} (h : idNamesHere? s = some names) : ']' ∉ names := by
  obtain ⟨rest, -, h⟩ := Option.bind_eq_some_iff.1 h
  obtain ⟨⟨cut, after⟩, hcut, h⟩ := Option.bind_eq_some_iff.1 h
  obtain ⟨-, -, h⟩ := Option.bind_eq_some_iff.1 h
  obtain rfl : cut = names := Option.some.inj h
  exact (Text.cutAt?_eq_some hcut).2

/-- The list of a key directive ends at the first bracket that closes it. -/
theorem not_mem_of_idNames? {s names : List Char} (h : idNames? s = some names) : ']' ∉ names := by
  induction s with
  | nil => cases h
  | cons c s ih =>
    rw [idNames?, Option.or_eq_some_iff] at h
    rcases h with h | ⟨-, h⟩
    · exact not_mem_of_idNamesHere? h
    · exact ih h

namespace Relation

theorem withoutBrackets_of_not_mem {s : List Char} (h : ']' ∉ s) : withoutBrackets s = s := by
  unfold withoutBrackets
  split
  next rest =>
    rw [if_neg]
    exact fun hlast => h (List.mem_cons_of_mem _ (List.mem_of_getLast? hlast))
  next => rfl

/-- The names that reading finds in the list of a key directive are its trimmed pieces between commas that
are followed by a space. -/
theorem mem_parseList_iff {s : List Char} (h : ']' ∉ s) {name : String} (hname : name ≠ "") :
    name ∈ parseList s ↔ ∃ p, IsPiece [',', ' '] p (trim s) ∧ trim p = name.toList := by
  have htrim : ']' ∉ trim s := fun hmem => h ((Text.isInfix_trim s).subset hmem)
  have hcomma : ',' ∉ [' '] := by decide
  rw [parseList, withoutBrackets_of_not_mem htrim, mem_map_trimmedPieces_iff hname]
  simp only [Text.mem_splitOn_iff hcomma]

end Relation

namespace Schema

/-- The names that a check finds in a key directive are the trimmed pieces of its list between commas. -/
theorem mem_idNames_iff {d name : String} (hname : name ≠ "") : name ∈ idNames d ↔
    ∃ s ∈ idNames? d.toList, ∃ p, IsPiece [','] p (trim s) ∧ trim p = name.toList := by
  unfold idNames
  cases idNames? d.toList with
  | none => simp
  | some s =>
    have hpieces : Relation.trimmedPieces (splitOn [','] s) =
        Relation.trimmedPieces (splitOn [','] (trim s)) := by
      rw [Relation.trimmedPieces, Relation.trimmedPieces, Text.map_trim_splitOn_trim (by decide)]
    simp only [Option.mem_some_iff, exists_eq_left']
    rw [hpieces, Relation.mem_map_trimmedPieces_iff hname]
    simp only [Text.mem_splitOn_iff List.not_mem_nil]

end Schema

namespace Model

/-! ### Lists of key directives -/

/-- Some key directive of the model lists the name: it stands, white space around it apart, between two
marks or ends of the list. -/
def Lists (m : Model) (mark : List Char) (name : String) : Prop :=
  ∃ d ∈ m.directives, ∃ s ∈ idNames? d.toList, ∃ p, IsPiece mark p (trim s) ∧ trim p = name.toList

variable {m : Model} {name : String}

theorem mem_directiveIds_iff (hname : name ≠ "") :
    name ∈ m.directiveIds ↔ m.Lists [',', ' '] name := by
  rw [directiveIds, List.mem_flatMap, Lists]
  refine exists_congr fun d => and_congr_right fun _ => ?_
  cases hids : idNames? d.toList with
  | none => simp
  | some s =>
    simp only [Option.map_some, Option.getD_some, Option.mem_some_iff, exists_eq_left']
    exact Relation.mem_parseList_iff (not_mem_of_idNames? hids) hname

theorem exists_mem_idNames_iff (hname : name ≠ "") :
    (∃ d ∈ m.directives, name ∈ Schema.idNames d) ↔ m.Lists [','] name := by
  simp only [Schema.mem_idNames_iff hname, Lists]

/-- A name between commas holds none. -/
theorem Lists.not_mem (h : m.Lists [','] name) : ',' ∉ name.toList := by
  obtain ⟨d, -, s, -, p, ⟨x, y, -, hp, -⟩, htrim⟩ := h
  rw [← htrim]
  exact fun hmem => hp ((List.singleton_infix_iff _ _).2 ((Text.isInfix_trim p).subset hmem))

/-- Between commas that are followed by a space a name stands between commas, unless it holds one. -/
theorem Lists.of_separator (hcomma : ',' ∉ name.toList) (h : m.Lists [',', ' '] name) :
    m.Lists [','] name := by
  obtain ⟨d, hd, s, hs, p, ⟨x, y, hsplit, -, hx, hy⟩, htrim⟩ := h
  have hp : ',' ∉ p := by
    obtain ⟨l, r, hpieces, hl, hr, -⟩ := Text.exists_append_trim p
    have hblank : Text.isBlank ',' = false := by decide
    rw [hpieces, htrim]
    simp only [List.mem_append, not_or]
    refine ⟨⟨fun hmem => ?_, hcomma⟩, fun hmem => ?_⟩
    · rw [hl _ hmem] at hblank
      cases hblank
    · rw [hr _ hmem] at hblank
      cases hblank
  have hy' : y = [] ∨ [','] <+: y := hy.imp_right fun hy => List.IsPrefix.trans ⟨[' '], rfl⟩ hy
  rcases hx with rfl | ⟨x, rfl⟩
  · exact ⟨d, hd, s, hs, p, ⟨[], y, hsplit, by rwa [List.singleton_infix_iff], .inl rfl, hy'⟩, htrim⟩
  · -- the space of the mark in front belongs to the piece
    refine ⟨d, hd, s, hs, ' ' :: p, ⟨x ++ [','], y, ?_, ?_, .inr (List.suffix_append x _), hy'⟩, ?_⟩
    · rw [hsplit]
      simp
    · rw [List.singleton_infix_iff, List.mem_cons, not_or]
      exact ⟨by decide, hp⟩
    · rw [Text.trim_cons Text.isBlank_space, htrim]

/-! ### Marks of key directives -/

/-- Among fields of distinct names, each one that is named is marked. -/
theorem markFirst_of_nodup {names : List String} {fields : List Field}
    (h : (fields.map (·.name)).Nodup) : markFirst names fields =
      fields.map fun f => { f with isId := f.isId || f.name ∈ names } := by
  induction fields generalizing names with
  | nil => rfl
  | cons f rest ih =>
    obtain ⟨hf, hrest⟩ := List.nodup_cons.1 h
    rw [markFirst, ih hrest, List.map_cons, List.cons.injEq]
    refine ⟨rfl, List.map_congr_left fun g hg => ?_⟩
    have hne : g.name ≠ f.name := fun heq => hf (List.mem_map.2 ⟨g, hg, heq⟩)
    simp [hne]

end Model

/-- A line without the mark of a key among its words gives a field without one. -/
theorem Field.isId_of_parse {line : List Char} {f : Field} (h : Field.parse line = .ok (some f))
    (hkey : "@id".toList ∉ (words (extract line).1).drop 2) : f.isId = false := by
  obtain ⟨rest, name, type, ws, hextract, hwords, -, hread⟩ := Field.exists_of_parse h
  refine Bool.eq_false_iff.2 fun hid => hkey ?_
  rcases (Field.saidBy_of_withAttributes hread).isId hid with hfirst | hmem
  · cases hfirst
  · obtain ⟨us, -, htext, hus⟩ := Attributes.exists_joined_of_mem_collect hmem
    have hws : ∀ u ∈ us, u ∈ ws := fun u hu => (hus u hu).resolve_left List.not_mem_nil
    have hjoined : words (Text.joined [' '] us) = us := Text.words_joined fun u hu =>
      Text.mem_words (s := rest) (by rw [hwords]; simp [hws u hu])
    have hself : us = ["@id".toList] := by
      rw [← hjoined, ← htext]
      decide
    rw [hextract, hwords]
    exact hws _ (by rw [hself]; exact List.mem_singleton_self _)

namespace Model

variable {fragment : List Char} {m : Model}

/-- The fields of distinct names that lines without marks of keys give are marked where the key directives
name them. -/
theorem isId_iff_mem_directiveIds (h : Model.parse fragment = .ok (some m))
    (hkey : ∀ line ∈ fieldLines fragment, "@id".toList ∉ (words (extract line).1).drop 2)
    (hnames : (m.fields.map (·.name)).Nodup) {f : Field} (hf : f ∈ m.fields) :
    f.name ≠ "" ∧ (f.isId = true ↔ f.name ∈ m.directiveIds) := by
  obtain ⟨header, body, hcut, -, hheader, -, hfields, -⟩ := exists_of_parse h
  have hsplit : split? fragment = some (trim header, body) := by
    rw [split?, hcut, Option.bind_some, if_neg hheader]
  rw [hfields, map_markFirst fun _ _ => rfl] at hnames
  rw [hfields, markFirst_of_nodup hnames] at hf
  obtain ⟨g, hg, rfl⟩ := List.mem_map.1 hf
  obtain ⟨line, hline, hfound⟩ := List.mem_filterMap.1 hg
  obtain ⟨hbody, hread⟩ := parse_of_fieldOf? hfound
  have hmem : line ∈ fieldLines fragment := by
    rw [fieldLines, hsplit]
    exact List.mem_filter.2 ⟨hline, decide_eq_true hbody⟩
  have hplain : g.isId = false := Field.isId_of_parse hread (hkey line hmem)
  refine ⟨fun hempty => (Field.read_of_parse hread).name.1 ?_, ?_⟩
  · rw [show g.name = "" from hempty]
    rfl
  · simp [hplain]

/-- Reading and checking agree on the key of a model, where no field line has a mark of its own and no name
is given twice, exactly if no field whose name holds a comma is listed between commas that are followed by a
space, and every other field that is listed between commas is listed between commas that are followed by a
space. -/
theorem isId_iff_mem_idNames_iff (h : Model.parse fragment = .ok (some m))
    (hkey : ∀ line ∈ fieldLines fragment, "@id".toList ∉ (words (extract line).1).drop 2)
    (hnames : (m.fields.map (·.name)).Nodup) :
    (∀ f ∈ m.fields, (f.isId = true ↔ ∃ d ∈ m.directives, f.name ∈ Schema.idNames d)) ↔
      ∀ f ∈ m.fields, if ',' ∈ f.name.toList then ¬m.Lists [',', ' '] f.name
        else m.Lists [','] f.name → m.Lists [',', ' '] f.name := by
  refine forall_congr' fun f => forall_congr' fun hf => ?_
  obtain ⟨hne, hid⟩ := isId_iff_mem_directiveIds h hkey hnames hf
  rw [hid, mem_directiveIds_iff hne, exists_mem_idNames_iff hne]
  split
  next hcomma =>
    have hnot : ¬m.Lists [','] f.name := fun hlists => hlists.not_mem hcomma
    rw [iff_false_right hnot]
  next hcomma => exact ⟨fun hiff => hiff.2, fun himp => ⟨Lists.of_separator hcomma, himp⟩⟩

/-- A key of two fields, with white space around the names. -/
def roomyKey : List Char :=
  "Seat \x7b
  hall Int
  label String?
  row Int @unique
  @@id([ hall , row\t])
\x7d
".toList

theorem isId_iff_mem_idNames_roomyKey : ∃ m, Model.parse roomyKey = .ok (some m) ∧
    (∀ line ∈ fieldLines roomyKey, "@id".toList ∉ (words (extract line).1).drop 2) ∧
    (m.fields.map (·.name)).Nodup ∧
    (∀ f ∈ m.fields, (f.isId = true ↔ ∃ d ∈ m.directives, f.name ∈ Schema.idNames d)) ∧
    ∀ f ∈ m.fields, if ',' ∈ f.name.toList then ¬m.Lists [',', ' '] f.name
      else m.Lists [','] f.name → m.Lists [',', ' '] f.name := by
  have hparsed : ∃ found ∈ (Model.parse roomyKey).toOption, ∃ m ∈ found,
      (∀ line ∈ fieldLines roomyKey, "@id".toList ∉ (words (extract line).1).drop 2) ∧
      (m.fields.map (·.name)).Nodup ∧
      ∀ f ∈ m.fields, (f.isId = true ↔ ∃ d ∈ m.directives, f.name ∈ Schema.idNames d) := by
    have hletters : roomyKey = _ := String.toList_ofList
    rw [hletters]
    decide +kernel
  obtain ⟨found, hfound, m, rfl, hkey, hnames, hagree⟩ := hparsed
  have h := eq_ok_of_mem_toOption hfound
  exact ⟨m, h, hkey, hnames, hagree, (isId_iff_mem_idNames_iff h hkey hnames).1 hagree⟩

/-- A key of two fields, with no space behind the comma. -/
def tightKey : List Char :=
  "Pair \x7b
  a Int
  b Int

  @@id([a,b])
\x7d
".toList

/-- Without the space reading marks neither field, and checking finds both. -/
theorem isId_iff_mem_idNames_tightKey_ne : ∃ m, Model.parse tightKey = .ok (some m) ∧
    (∀ line ∈ fieldLines tightKey, "@id".toList ∉ (words (extract line).1).drop 2) ∧
    (m.fields.map (·.name)).Nodup ∧
    ¬∀ f ∈ m.fields, (f.isId = true ↔ ∃ d ∈ m.directives, f.name ∈ Schema.idNames d) := by
  have hparsed : ∃ found ∈ (Model.parse tightKey).toOption, ∃ m ∈ found,
      (∀ line ∈ fieldLines tightKey, "@id".toList ∉ (words (extract line).1).drop 2) ∧
      (m.fields.map (·.name)).Nodup ∧
      ¬∀ f ∈ m.fields, (f.isId = true ↔ ∃ d ∈ m.directives, f.name ∈ Schema.idNames d) := by
    have hletters : tightKey = _ := String.toList_ofList
    rw [hletters]
    decide +kernel
  obtain ⟨found, hfound, m, rfl, hrest⟩ := hparsed
  exact ⟨m, eq_ok_of_mem_toOption hfound, hrest⟩

end Model

end CatalogSync
