import CatalogSync.Proofs.Catalog.Table
import CatalogSync.Proofs.Text.Utf8

/-!
Text that is delivered as bytes. A driver may deliver the bytes of any text cell instead of the text. Most cells
are read, and mean the same either way; but the name of a column and its mark of nullability are shown, and
bytes are not shown as their text is. So a row of constraints means the same, whatever cells come as bytes, and
a description row gives the same column exactly where the two cells that are shown come as they were, of which
the second only matters where it marks a column that may hold nothing.
-/

namespace CatalogSync

/-! ### Cells -/

namespace Text

theorem length_le_length_flatMap {α β : Type} {f : α → List β} (hf : ∀ a, f a ≠ []) (l : List α) :
    l.length ≤ (l.flatMap f).length := by
  induction l with
  | nil => exact Nat.zero_le _
  | cons a l ih =>
    have ha := List.length_pos_iff.2 (hf a)
    rw [List.flatMap_cons, List.length_append, List.length_cons]
    omega

/-- The bytes of a text are at least as many as its characters. -/
theorem length_le_length_encode (s : List Char) : s.length ≤ (encode s).length := by
  refine length_le_length_flatMap (fun c hnil => ?_) s
  have hlength := String.length_utf8EncodeChar c
  have hpos := c.utf8Size_pos
  rw [hnil, List.length_nil] at hlength
  omega

theorem quotedByte_ne_nil (quote : Char) (b : UInt8) : quotedByte quote b ≠ [] := by
  unfold quotedByte
  dsimp only
  split_ifs <;> exact List.cons_ne_nil _ _

/-- Bytes in quotes are longer than they are. -/
theorem length_lt_length_quotedBytes (bytes : List UInt8) :
    bytes.length < (quotedBytes bytes).toList.length := by
  have := length_le_length_flatMap
    (quotedByte_ne_nil (quoteFor (bytes.map fun b => Char.ofNat b.toNat))) bytes
  rw [quotedBytes, String.toList_ofList, List.length_append, List.length_cons, List.length_cons]
  omega

/-- Bytes in quotes are not the mark of a column that may hold nothing, in any letter case. -/
theorem upper_quotedBytes_ne (bytes : List UInt8) :
    String.ofList (upper (quotedBytes bytes).toList) ≠ "YES" := by
  intro h
  have hlist := congrArg String.toList h
  rw [String.toList_ofList, quotedBytes, String.toList_ofList] at hlist
  cases hlist

end Text

namespace Cell

/-- A cell as it may be delivered: as it is or, where it is a text, as the bytes of the text. -/
inductive Encoded : Cell → Cell → Prop
  | same (c : Cell) : Encoded c c
  | bytes (s : String) : Encoded (.text s) (.bytes (Text.encode s.toList))

variable {c c' : Cell}

/-- Reading does not tell a text from its bytes. -/
theorem Encoded.text?_eq (h : Encoded c c') : c'.text? = c.text? := by
  cases h with
  | same => rfl
  | bytes s =>
    rw [text?, Text.decode_encode]
    exact congrArg Except.ok String.ofList_toList

theorem Encoded.cellValue_eq (h : Encoded c c') :
    ConstraintRow.cellValue c' = ConstraintRow.cellValue c := by
  cases h with
  | same => rfl
  | bytes s =>
    simp only [ConstraintRow.cellValue, Text.decode_encode, String.ofList_toList]

theorem Encoded.eq_null_iff (h : Encoded c c') : c' = .null ↔ c = .null := by
  cases h with
  | same => rfl
  | bytes s => exact ⟨nofun, nofun⟩

/-- Showing does. -/
theorem Encoded.display_eq_iff (h : Encoded c c') : c'.display = c.display ↔ c' = c := by
  cases h with
  | same => simp
  | bytes s =>
    refine iff_of_false (fun heq => ?_) nofun
    have hlong := Text.length_lt_length_quotedBytes (Text.encode s.toList)
    have hshort := Text.length_le_length_encode s.toList
    have hlist : (Text.quotedBytes (Text.encode s.toList)).toList = s.toList := congrArg String.toList heq
    rw [hlist] at hlong
    omega

end Cell

/-! ### Rows -/

/-- Rows of constraints mean the same, whatever cells come as bytes. -/
theorem ConstraintRow.ofRow_encoded {row row' : Row} (h : List.Forall₂ Cell.Encoded row row') :
    ofRow row' = ofRow row := by
  have hvalues : (row'.take names.length).mapM cellValue = (row.take names.length).mapM cellValue :=
    mapM_eq_of_forall₂ ((List.forall₂_take _ h).imp fun _ _ hc => hc.cellValue_eq)
  rw [ofRow, ofRow, hvalues]

namespace Column

variable {row row' : Row}

/-- The cells that are shown, the first and the third, come as they were. -/
def SameShown (row row' : Row) : Prop := row'[0]? = row[0]? ∧ row'[2]? = row[2]?

/-- The cells on whose showing the column depends come as they were: the first and, where it is the text that
marks a column that may hold nothing, the third. -/
structure Kept (row row' : Row) : Prop where
  field : row'[0]? = row[0]?
  nullability : ∀ s, row[2]? = some (.text s) → String.ofList (Text.upper s.toList) = "YES" →
    row'[2]? = row[2]?

theorem cellText_encoded {c c' : Cell} (h : Cell.Encoded c c') : cellText c' = cellText c := by
  rw [cellText, cellText, h.text?_eq]

/-- The default that a cell gives; null gives none. -/
def literalOf (c : Cell) : Except Fault (Option String) :=
  if c = .null then .ok none else some <$> cellText c

theorem ofRow_eq (field sqlType nullability key default extra : Cell) (rest : List Cell) :
    ofRow (field :: sqlType :: nullability :: key :: default :: extra :: rest) = (do
      let sqlType ← cellText sqlType
      let key ← cellText key
      let literal ← literalOf default
      let extra ← cellText extra
      make {
        field := field.display
        sqlType := sqlType
        nullable := String.ofList (Text.upper nullability.display.toList) = "YES"
        keyFlag := KeyFlag.ofCatalog key
        defaultLiteral := literal
        extra := extra }) := by
  rw [ofRow, literalOf]
  by_cases hnull : default = .null
  · simp only [if_pos hnull]
    rfl
  · simp only [if_neg hnull]

theorem literalOf_encoded {c c' : Cell} (h : Cell.Encoded c c') : literalOf c' = literalOf c := by
  simp only [literalOf, h.eq_null_iff, cellText_encoded h]

theorem rowNotes_encoded (h : List.Forall₂ Cell.Encoded row row') : rowNotes row' = rowNotes row := by
  rcases h with _ | ⟨-, _ | ⟨htype, _ | ⟨-, _ | ⟨hkey, _ | ⟨-, _ | ⟨-, -⟩⟩⟩⟩⟩⟩
  case cons.cons.cons.cons.cons.cons => rw [rowNotes, rowNotes, htype.text?_eq, hkey.text?_eq]
  all_goals rfl

theorem ofRow_eq_of_sameShown (h : List.Forall₂ Cell.Encoded row row') (hshown : SameShown row row') :
    ofRow row' = ofRow row := by
  rcases h with _ | ⟨-, _ | ⟨htype, _ | ⟨-, _ | ⟨hkey, _ | ⟨hdefault, _ | ⟨hextra, -⟩⟩⟩⟩⟩⟩
  case cons.cons.cons.cons.cons.cons =>
    obtain ⟨hfield, hnull⟩ := hshown
    obtain rfl := Option.some.inj hfield
    obtain rfl := Option.some.inj hnull
    rw [ofRow_eq, ofRow_eq, cellText_encoded htype, cellText_encoded hkey, literalOf_encoded hdefault,
      cellText_encoded hextra]
  all_goals rfl

theorem make_eq_ok_iff {c d : Column} : make c = .ok d ↔ d = c ∧ c.field ≠ "" ∧ c.sqlType ≠ "" := by
  constructor
  · intro h
    have hvalid := Validated.eq_valid_of_toExcept h
    rw [Validated.functor_map_eq] at hvalid
    obtain ⟨_, sqlType, hmap, htype, rfl⟩ := Validated.seq_eq_valid_iff.1 hvalid
    obtain ⟨field, hfield, rfl⟩ := Validated.map_eq_valid_iff.1 hmap
    obtain ⟨heqField, hneField⟩ := Record.checked_someText_eq_valid_iff.1 hfield
    obtain ⟨heqType, hneType⟩ := Record.checked_someText_eq_valid_iff.1 htype
    cases heqField
    cases heqType
    exact ⟨rfl, hneField, hneType⟩
  · rintro ⟨rfl, hfield, htype⟩
    rw [make, Record.checked_someText_text hfield, Record.checked_someText_text htype]
    rfl

theorem display_ne_of_encoded {c c' : Cell} (h : Cell.Encoded c c') (hc : c.display ≠ "") :
    c'.display ≠ "" := by
  cases h with
  | same => exact hc
  | bytes s =>
    intro hempty
    have hlong := Text.length_lt_length_quotedBytes (Text.encode s.toList)
    have hnil : (Text.quotedBytes (Text.encode s.toList)).toList = [] := congrArg String.toList hempty
    rw [hnil] at hlong
    cases hlong

/-- Whether a mark is shown alike. -/
theorem nullable_encoded_iff {c c' : Cell} (h : Cell.Encoded c c') :
    (String.ofList (Text.upper c'.display.toList) = "YES" ↔
      String.ofList (Text.upper c.display.toList) = "YES") ↔
    ∀ s, c = .text s → String.ofList (Text.upper s.toList) = "YES" → c' = c := by
  cases h with
  | same => simp
  | bytes s =>
    have hbytes := Text.upper_quotedBytes_ne (Text.encode s.toList)
    simp [Cell.display, hbytes]

/-- A description row that gives a column still gives one, and the same column exactly where the cells on whose
showing it depends come as they were. -/
theorem exists_ofRow_encoded (h : List.Forall₂ Cell.Encoded row row') {c : Column}
    (hc : ofRow row = .ok c) : ∃ c', ofRow row' = .ok c' ∧ (c' = c ↔ Kept row row') := by
  rcases h with _ | ⟨hfield, _ | ⟨htype, _ | ⟨hnull, _ | ⟨hkey, _ | ⟨hdefault, _ | ⟨hextra, hrest⟩⟩⟩⟩⟩⟩
  case cons.cons.cons.cons.cons.cons =>
    rw [ofRow_eq] at hc ⊢
    rw [cellText_encoded htype, cellText_encoded hkey, literalOf_encoded hdefault,
      cellText_encoded hextra]
    obtain ⟨type, htype, hc⟩ := exists_of_bind_eq_ok hc
    obtain ⟨flag, hflag, hc⟩ := exists_of_bind_eq_ok hc
    obtain ⟨literal, hliteral, hc⟩ := exists_of_bind_eq_ok hc
    obtain ⟨more, hmore, hc⟩ := exists_of_bind_eq_ok hc
    obtain ⟨rfl, hname, hfilled⟩ := make_eq_ok_iff.1 hc
    rw [htype, hflag, hliteral, hmore]
    refine ⟨_, make_eq_ok_iff.2 ⟨rfl, display_ne_of_encoded hfield hname, hfilled⟩, ?_⟩
    simp only [Column.mk.injEq, hfield.display_eq_iff, decide_eq_decide, nullable_encoded_iff hnull,
      and_true, true_and]
    constructor
    · rintro ⟨rfl, hkept⟩
      exact ⟨rfl, fun s hs hyes => congrArg some (hkept s (Option.some.inj hs) hyes)⟩
    · rintro ⟨hname, hkept⟩
      exact ⟨Option.some.inj hname, fun s hs hyes => Option.some.inj (hkept s (congrArg some hs) hyes)⟩
  all_goals cases hc

/-- Rows that give columns still give them, and the same ones exactly where the cells on whose showing these
depend come as they were. -/
theorem exists_mapM_ofRow_encoded {rows rows' : List Row}
    (h : List.Forall₂ (List.Forall₂ Cell.Encoded) rows rows') {columns : List Column}
    (hcolumns : rows.mapM ofRow = .ok columns) :
    ∃ columns', rows'.mapM ofRow = .ok columns' ∧ (columns' = columns ↔ List.Forall₂ Kept rows rows') := by
  rw [mapM_eq_ok_iff] at hcolumns
  simp only [mapM_eq_ok_iff]
  induction h generalizing columns with
  | nil =>
    obtain rfl := List.forall₂_nil_left_iff.1 hcolumns
    exact ⟨[], .nil, by simp⟩
  | cons hrow _ ih =>
    obtain ⟨c, rest, hc, hrest, rfl⟩ := List.forall₂_cons_left_iff.1 hcolumns
    obtain ⟨c', hc', hiff⟩ := exists_ofRow_encoded hrow hc
    obtain ⟨rest', hrest', hiffs⟩ := ih hrest
    exact ⟨c' :: rest', .cons hc' hrest', by rw [List.cons.injEq, List.forall₂_cons, hiff, hiffs]⟩

end Column

end CatalogSync
