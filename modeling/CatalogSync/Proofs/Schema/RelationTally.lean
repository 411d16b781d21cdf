import CatalogSync.Proofs.Schema.AttributeText

/-!
How many characters of one kind a relation holds. Reading an attribute takes characters out and adds
none, so that the texts of the relation hold no more of them than the attribute does, as long as the
keys and the marks between them do not count.
-/

namespace CatalogSync

open Text (joined trim)

namespace Text

theorem trim_sublist (s : List Char) : (trim s).Sublist s := (isInfix_trim s).sublist

theorem flatten_splitFrom_sublist (mark : List Char) (skip : Nat) (s : List Char) :
    (splitFrom mark skip s).flatten.Sublist s := by
  fun_induction splitFrom mark skip s with
  | case1 => exact List.Sublist.refl _
  | case2 skip c rest ih => exact ih.cons c
  | case3 c rest _ ih => exact ih.cons c
  | case4 c rest _ hnil ih => exact List.Sublist.cons_cons c (List.nil_sublist rest)
  | case5 c rest _ first others hcons ih =>
    rw [hcons] at ih
    exact ih.cons_cons c

theorem countP_joined {q : Char → Bool} {separator : List Char} (h : separator.countP q = 0)
    (pieces : List (List Char)) :
    (joined separator pieces).countP q = (pieces.map (·.countP q)).sum := by
  induction pieces with
  | nil => rfl
  | cons piece pieces ih =>
    cases pieces with
    | nil => simp [joined]
    | cons next pieces =>
      rw [joined, List.countP_append, List.countP_append, h, ih]
      simp only [List.map_cons, List.sum_cons, Nat.add_zero]

end Text

namespace Relation

theorem flatten_topLevelPieces_sublist (depth : Int) (skip : Bool) (s : List Char) :
    (topLevelPieces depth skip s).flatten.Sublist s := by
  fun_induction topLevelPieces depth skip s with
  | case1 => exact List.Sublist.refl _
  | case2 depth c rest ih => exact ih.cons c
  | case3 depth skip c rest _ _ _ ih => exact ih.cons c
  | case4 depth skip c rest => exact List.Sublist.cons_cons c (List.nil_sublist rest)
  | case5 depth skip c rest _ _ _ first others hcons ih =>
    rw [hcons] at ih
    exact ih.cons_cons c

theorem flatten_trimmedPieces_sublist (pieces : List (List Char)) :
    (trimmedPieces pieces).flatten.Sublist pieces.flatten := by
  have htrim : (pieces.map trim).flatten.Sublist pieces.flatten := by
    induction pieces with
    | nil => exact List.Sublist.refl _
    | cons piece pieces ih => exact (Text.trim_sublist piece).append ih
  refine List.Sublist.trans ?_ htrim
  rw [trimmedPieces]
  induction pieces.map trim with
  | nil => exact List.Sublist.refl _
  | cons piece pieces ih =>
    rw [List.filter_cons]
    split
    · exact (List.Sublist.refl piece).append ih
    · exact ih.trans (List.sublist_append_right piece _)

theorem withoutBrackets_sublist (s : List Char) : (withoutBrackets s).Sublist s := by
  unfold withoutBrackets
  split
  next rest =>
    split
    · exact ((List.dropLast_sublist rest).trans (List.sublist_cons_self '[' rest))
    · exact List.Sublist.refl _
  next => exact List.Sublist.refl _

theorem unquote_sublist (s : List Char) : (unquote s).Sublist s := by
  refine List.Sublist.trans ?_ (Text.trim_sublist s)
  unfold unquote
  dsimp only
  split
  next rest hrest =>
    rw [hrest]
    split
    · exact ((List.dropLast_sublist rest).trans (List.sublist_cons_self '"' rest))
    · exact List.Sublist.refl _
  next => exact List.Sublist.refl _

theorem flatten_parseList_sublist (s : List Char) :
    ((parseList s).map (·.toList)).flatten.Sublist s := by
  have hpieces : (parseList s).map (·.toList) =
      trimmedPieces (Text.splitOn [',', ' '] (withoutBrackets (trim s))) := by
    rw [parseList, List.map_map]
    simp [Function.comp_def]
  rw [hpieces]
  exact (flatten_trimmedPieces_sublist _).trans ((Text.flatten_splitFrom_sublist _ 0 _).trans
    ((withoutBrackets_sublist _).trans (Text.trim_sublist s)))

theorem body_sublist (s : List Char) : (body s).Sublist s := by
  have hafter : ((Text.after? "@relation(".toList (trim s)).getD (trim s)).Sublist s := by
    cases h : Text.after? "@relation(".toList (trim s) with
    | none => exact Text.trim_sublist s
    | some rest =>
      have hsuffix : rest <:+ trim s := ⟨"@relation(".toList, (Text.after?_eq_some_iff.1 h).symm⟩
      exact hsuffix.sublist.trans (Text.trim_sublist s)
  rw [body]
  split
  · exact (List.dropLast_sublist _).trans hafter
  · exact hafter

/-! ### The tally -/

section Tally

variable {q : Char → Bool}

/-- How many characters of one kind the names and actions of a relation hold. -/
def tally (q : Char → Bool) (r : Relation) : Nat :=
  ((r.fields.getD []).map (·.toList)).flatten.countP q
    + ((r.references.getD []).map (·.toList)).flatten.countP q
    + (r.mapName.getD "").toList.countP q + (r.onDelete.getD "").toList.countP q
    + (r.onUpdate.getD "").toList.countP q

theorem tally_setPart_le (r : Relation) (key : PartKey) (value : List Char) :
    (r.setPart key value).tally q ≤ r.tally q + value.countP q := by
  have htrim : (trim value).countP q ≤ value.countP q := (Text.trim_sublist value).countP_le
  have hquote : (unquote value).countP q ≤ value.countP q := (unquote_sublist value).countP_le
  have hlist : ((parseList value).map (·.toList)).flatten.countP q ≤ value.countP q :=
    (flatten_parseList_sublist value).countP_le
  cases key <;> simp only [setPart, tally, Option.getD_some, String.toList_ofList] <;> omega

theorem tally_addPieces_le {whole : List Char} {pieces : List (List Char)} {r r' : Relation}
    (h : addPieces whole r pieces = .ok r') :
    r'.tally q ≤ r.tally q + pieces.flatten.countP q := by
  induction pieces generalizing r with
  | nil =>
    obtain rfl := Except.ok.inj h
    exact Nat.le_add_right _ _
  | cons piece pieces ih =>
    rw [addPieces] at h
    split at h
    next key value hkey =>
      obtain ⟨k, -, hfound⟩ := List.exists_of_findSome?_eq_some hkey
      obtain ⟨rest, hrest, heq⟩ := Option.map_eq_some_iff.1 hfound
      obtain ⟨-, rfl⟩ : k = key ∧ rest = value := by simpa using heq
      have hvalue : rest.countP q ≤ piece.countP q := by
        rw [Text.after?_eq_some_iff.1 hrest, List.countP_append]
        exact Nat.le_add_left _ _
      have hset := tally_setPart_le (q := q) r key rest
      have hih := ih h
      rw [List.flatten_cons, List.countP_append]
      omega
    next => cases h

/-- A relation holds no more characters of a kind than the text between its parentheses. -/
theorem tally_le_of_parse {s : List Char} {r : Relation} (h : parse s = .ok r) :
    r.tally q ≤ (body s).countP q := by
  have hpieces := tally_addPieces_le (q := q) h
  have hsplit : (splitTopLevel (body s)).flatten.countP q ≤ (body s).countP q :=
    ((flatten_trimmedPieces_sublist _).trans
      (flatten_topLevelPieces_sublist 0 false (body s))).countP_le
  have hempty : ({} : Relation).tally q = 0 := rfl
  rw [hempty, Nat.zero_add] at hpieces
  exact hpieces.trans hsplit

theorem countP_renderList (hmark : ∀ c ∈ [' ', ',', '[', ']', '"'], q c = false)
    (items : List String) :
    (renderList items).countP q = (items.map (·.toList)).flatten.countP q := by
  have hseparator : [',', ' '].countP q = 0 := by
    simp [hmark ',' (by simp), hmark ' ' (by simp)]
  have hopen : q '[' = false := hmark _ (by simp)
  have hclose : q ']' = false := hmark _ (by simp)
  rw [renderList, List.countP_append, List.countP_cons, Text.countP_joined hseparator,
    List.countP_flatten]
  simp [hopen, hclose]

/-- The tally of a relation is that of its text, where neither keys nor marks count. -/
theorem countP_renderParts (hword : ∀ key : PartKey, ∀ c ∈ key.word.toList, q c = false)
    (hmark : ∀ c ∈ [' ', ',', '[', ']', '"'], q c = false) (r : Relation) :
    (joined [',', ' '] r.renderParts).countP q = r.tally q := by
  have hseparator : [',', ' '].countP q = 0 := by
    simp [hmark ',' (by simp), hmark ' ' (by simp)]
  have hpart : ∀ (key : PartKey) (value : List Char),
      (partText (key, value)).countP q = value.countP q := by
    intro key value
    have hnone : key.word.toList.countP q = 0 :=
      List.countP_eq_zero.2 fun c hc => by simp [hword key c hc]
    rw [partText, List.countP_append, hnone, List.countP_cons]
    simp [hmark ' ' (by simp)]
  have hquoted : ∀ name : List Char, ('"' :: name ++ ['"']).countP q = name.countP q := by
    intro name
    simp [hmark '"' (by simp)]
  have hparts : (r.renderParts.map (·.countP q)) = r.parts.map fun part => part.2.countP q := by
    rw [renderParts_eq, List.map_map]
    exact List.map_congr_left fun part _ => hpart part.1 part.2
  have hnames : ∀ (key : PartKey) (o : Option (List String)),
      (((o.map fun names => (key, renderList names)).toList.map
        fun part => part.2.countP q)).sum = ((o.getD []).map (·.toList)).flatten.countP q := by
    intro key o
    cases o with
    | none => rfl
    | some names => simp [countP_renderList hmark]
  have hname : ((r.mapName.map fun name => (PartKey.map, '"' :: name.toList ++ ['"'])).toList.map
      fun part => part.2.countP q).sum = (r.mapName.getD "").toList.countP q := by
    cases r.mapName with
    | none => rfl
    | some name => simpa using hquoted name.toList
  have haction : ∀ (key : PartKey) (o : Option String),
      ((o.map fun action => (key, action.toList)).toList.map
        fun part => part.2.countP q).sum = (o.getD "").toList.countP q := by
    intro key o
    cases o with
    | none => rfl
    | some action => simp
  rw [Text.countP_joined hseparator, hparts, parts, tally]
  simp only [List.map_append, List.sum_append, hnames, hname, haction]

end Tally

/-- A relation has no line break where its attribute has none. -/
theorem noBreak_render_of_parse {s : List Char} {r : Relation} (h : parse s = .ok r)
    (hs : Text.NoBreak s) : Text.NoBreak r.render := by
  have hword : ∀ key : PartKey, ∀ c ∈ key.word.toList, Text.isLineBreak c = false := by
    intro key
    cases key <;> decide
  have hbody : (body s).countP Text.isLineBreak = 0 :=
    List.countP_eq_zero.2 fun c hc => by simp [hs c ((body_sublist s).subset hc)]
  have htally := tally_le_of_parse (q := Text.isLineBreak) h
  rw [hbody, ← countP_renderParts hword (by decide)] at htally
  have hmarks : Text.NoBreak "@relation(".toList ∧ Text.NoBreak [')'] := by decide
  have hinner : Text.NoBreak (joined [',', ' '] r.renderParts) := by
    intro c hc
    have := List.countP_eq_zero.1 (Nat.le_zero.1 htally) c hc
    simpa using this
  exact (hmarks.1.append hinner).append hmarks.2

/-! ### Signs -/

theorem trim_sign (s : List Char) : trim ('@' :: s) = '@' :: Text.trimRight s := by
  have hblank : Text.isBlank '@' = false := by decide
  have hleft : Text.trimLeft ('@' :: s) = '@' :: s :=
    List.dropWhile_cons_of_neg (by simp [hblank])
  rw [trim, hleft]
  exact Text.dropTrailing_append_cons [] hblank s

/-- What stands between the parentheses does not begin with a sign, since no key does. -/
theorem not_parse_of_body_sign {s rest : List Char} (hbody : body s = '@' :: rest) {r : Relation} :
    parse s ≠ .ok r := by
  intro h
  have hdepth : depthChange '@' = 0 := by decide
  have hstart : Text.startsWith [',', ' '] ('@' :: rest) = false :=
    Text.startsWith_cons_of_ne [' '] rest (by decide)
  obtain ⟨first, others, hpieces⟩ : ∃ first others,
      topLevelPieces 0 false ('@' :: rest) = ('@' :: first) :: others := by
    rw [topLevelPieces, hdepth]
    simp only [hstart]
    cases hp : topLevelPieces (0 + 0) false rest with
    | nil => exact ⟨[], [], by simp⟩
    | cons first others => exact ⟨first, others, by simp⟩
  have hkey : ∀ x : List Char, keyOf? ('@' :: x) = none := fun _ => rfl
  rw [parse, hbody, splitTopLevel, hpieces, trimmedPieces, List.map_cons, trim_sign,
    List.filter_cons, if_pos (by simp), addPieces, hkey] at h
  cases h

/-- A relation shows no more signs than the attribute it was read from. -/
theorem countP_render_le {s : List Char} {r : Relation}
    (hs : Text.startsWith "@relation".toList s = true) (h : parse s = .ok r) :
    r.render.countP (· = '@') ≤ s.countP (· = '@') := by
  have hword : ∀ key : PartKey, ∀ c ∈ key.word.toList, decide (c = '@') = false := by
    intro key
    cases key <;> decide
  have hrender : r.render.countP (· = '@') = 1 + r.tally (· = '@') := by
    have hmark : "@relation(".toList.countP (· = '@') = 1 := by decide
    rw [render_eq, List.countP_append, List.countP_append, hmark,
      countP_renderParts hword (by decide)]
    rfl
  have htally := tally_le_of_parse (q := fun c => decide (c = '@')) h
  have htrim : (trim s).countP (· = '@') ≤ s.countP (· = '@') := (Text.trim_sublist s).countP_le
  have hbody : 1 + (body s).countP (· = '@') ≤ (trim s).countP (· = '@') := by
    cases hafter : Text.after? "@relation(".toList (trim s) with
    | some rest =>
      have hmark : "@relation(".toList.countP (· = '@') = 1 := by decide
      have hinner : (body s).countP (· = '@') ≤ rest.countP (· = '@') := by
        rw [body, hafter, Option.getD_some]
        split
        · exact (List.dropLast_sublist rest).countP_le
        · exact Nat.le_refl _
      rw [Text.after?_eq_some_iff.1 hafter, List.countP_append, hmark]
      omega
    | none =>
      obtain ⟨t, ht⟩ := Text.startsWith_iff.1 hs
      have hsign : s = '@' :: ("relation".toList ++ t) := ht
      have hbody : ∃ rest, body s = '@' :: rest := by
        rw [body, hafter, Option.getD_none, hsign, trim_sign]
        cases Text.trimRight ("relation".toList ++ t) with
        | nil => exact ⟨[], rfl⟩
        | cons c x =>
          split
          · exact ⟨(c :: x).dropLast, rfl⟩
          · exact ⟨c :: x, rfl⟩
      obtain ⟨rest, hrest⟩ := hbody
      exact absurd h (not_parse_of_body_sign hrest)
  omega

end Relation

end CatalogSync
