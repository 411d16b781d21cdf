import CatalogSync.Proofs.Schema.RelationText
import CatalogSync.Proofs.Schema.UniqueMark

/-!
Attributes as they are written. Each one stands in a line as one attribute, whatever follows it, and
says again what it was written from.
-/

namespace CatalogSync

open Text (isBlank joined after? NoBlank SingleSpaced)

namespace Attributes

theorem any_isOpener_takeWhile {pre : List Char} (hpre : NoBlank pre)
    (h : pre.any isOpener = true) (s : List Char) :
    ((pre ++ s).takeWhile fun c => !isBlank c).any isOpener = true := by
  rw [List.takeWhile_append_of_pos fun c hc => by rw [hpre c hc]; rfl, List.any_append, h,
    Bool.true_or]

/-- An attribute with one argument in parentheses is one attribute where the argument closes what
it opens, and nowhere in front of one of its spaces closes the first parenthesis as well. -/
theorem stands_parenthesised {pre inner : List Char} (hpre : NoBlank pre) (hne : pre ≠ [])
    (hopen : pre.any isOpener = true) (hround : Balance.add {} pre = ⟨1, 0, 0⟩)
    (hs : SingleSpaced inner)
    (hin : ∀ x y, inner = x ++ ' ' :: y → (Balance.add ⟨1, 0, 0⟩ x).isEven = false)
    (heven : (Balance.add {} inner).isEven = true) :
    Stands (pre ++ inner ++ [')']) (.bracketed (pre ++ inner ++ [')'])) := by
  have hsp : ' ' ∉ pre := fun hmem => by
    have := hpre ' ' hmem
    rw [Text.isBlank_space] at this
    cases this
  refine stands_bracketed ?_ ?_ ?_ ?_ ((Balance.closesAtEnd_parenthesised hsp hround).2
    ⟨hin, heven⟩)
  · have hlast : pre.getLast? ≠ some ' ' := fun h => hsp (List.mem_of_getLast? h)
    have hclose : SingleSpaced [')'] := by
      refine NoBlank.singleSpaced fun c hc => ?_
      obtain rfl : c = ')' := by simpa using hc
      rfl
    exact (hpre.singleSpaced.append hs (Or.inl hlast)).append hclose (Or.inr (by simp))
  · obtain ⟨c, rest, rfl⟩ := List.exists_cons_of_ne_nil hne
    simp only [List.cons_append, List.head?_cons, ne_eq, Option.some.injEq]
    rintro rfl
    exact hsp List.mem_cons_self
  · rw [List.getLast?_append]
    simp
  · rw [List.append_assoc]
    exact any_isOpener_takeWhile hpre hopen _

/-- A word that opens brackets is one attribute where it closes them. -/
theorem stands_bracketed_word {s : List Char} (hs : NoBlank s) (hopen : s.any isOpener = true)
    (heven : (Balance.add {} s).isEven = true) : Stands s (.bracketed s) := by
  have hsp : ' ' ∉ s := fun hmem => by
    have := hs ' ' hmem
    rw [Text.isBlank_space] at this
    cases this
  have hfirst := any_isOpener_takeWhile hs hopen []
  rw [List.append_nil] at hfirst
  have hends : Balance.ClosesAtEnd {} s := by
    refine ⟨fun x y hxy => ?_, heven⟩
    exact absurd (by rw [hxy]; simp) hsp
  exact stands_bracketed hs.singleSpaced (fun hc => hsp (List.mem_of_head? hc))
    (fun hc => hsp (List.mem_of_getLast? hc)) hfirst hends

end Attributes

namespace Field

/-- The attribute of a default expression. -/
def defaultText (e : List Char) : List Char := "@default(".toList ++ e ++ [')']

theorem defaultText_eq (e : List Char) : defaultText e = "@default(".toList ++ e ++ [')'] := rfl

/-- The attribute of a native type. -/
def nativeText (t : List Char) : List Char := "@db.".toList ++ t

theorem nativeText_eq (t : List Char) : nativeText t = "@db.".toList ++ t := rfl

/-- A default expression that is read back from its attribute: single-spaced, closing what it
opens, and in front of each of its spaces leaving some bracket open, the one around it included. -/
structure DefaultFits (e : List Char) : Prop where
  singleSpaced : SingleSpaced e
  inner : ∀ x y, e = x ++ ' ' :: y → (Balance.add ⟨1, 0, 0⟩ x).isEven = false
  even : (Balance.add {} e).isEven = true

theorem stands_defaultText {e : List Char} (h : DefaultFits e) :
    Attributes.Stands (defaultText e) (.bracketed (defaultText e)) := by
  refine Attributes.stands_parenthesised ?_ (by simp) (by decide) (by decide) h.1 h.2 h.3
  decide

theorem withAttribute_defaultText (f : Field) (e : List Char) :
    f.withAttribute (.bracketed (defaultText e)) =
      .ok { f with defaultExpr := some (String.ofList e) } := by
  have hkind : kindOf (defaultText e) = .default e := by
    have hdb : after? "@db.".toList (defaultText e) = none := by
      rw [defaultText_eq]
      simp [after?]
    have hrelation : Text.startsWith "@relation".toList (defaultText e) = false := by
      rw [defaultText_eq]
      simp [Text.startsWith, after?]
    have hrest : after? "@default(".toList (defaultText e) = some (e ++ [')']) := by
      rw [defaultText_eq, List.append_assoc, Text.after?_append]
    rw [kindOf, hdb, hrelation, hrest]
    simp
  rw [withAttribute, hkind]

/-- The attribute that a native type is read as. -/
def nativeAttribute (t : List Char) : Attribute :=
  if t.any isOpener then .bracketed (nativeText t) else .bare (nativeText t)

/-- A native type that is read back from its attribute: one word that closes what it opens, if it
opens anything. -/
structure NativeFits (t : List Char) : Prop where
  noBlank : NoBlank t
  even : t.any isOpener = true → (Balance.add {} t).isEven = true

theorem stands_nativeText {t : List Char} (h : NativeFits t) :
    Attributes.Stands (nativeText t) (nativeAttribute t) := by
  have hsign : NoBlank "@db.".toList := by decide
  have hblank : NoBlank (nativeText t) := hsign.append h.noBlank
  have hne : nativeText t ≠ [] := by
    rw [nativeText_eq]
    simp
  have hopen : (nativeText t).any isOpener = t.any isOpener := by
    have : "@db.".toList.any isOpener = false := by decide
    rw [nativeText_eq, List.any_append, this, Bool.false_or]
  cases ht : t.any isOpener with
  | false =>
    have := Attributes.stands_bare hne hblank (by rw [hopen, ht])
    simpa [nativeAttribute, ht] using this
  | true =>
    have heven : (Balance.add {} (nativeText t)).isEven = true := by
      have hbalance : Balance.add {} "@db.".toList = {} := by decide
      rw [nativeText_eq, Balance.add_append, hbalance, h.even ht]
    have := Attributes.stands_bracketed_word hblank (by rw [hopen, ht]) heven
    simpa [nativeAttribute, ht] using this

theorem withAttribute_nativeAttribute (f : Field) (t : List Char) :
    f.withAttribute (nativeAttribute t) =
      .ok { f with nativeType := some (String.ofList t) } := by
  have hrest : after? "@db.".toList (nativeText t) = some t := Text.after?_append _ _
  have hid : nativeText t ≠ "@id".toList := by
    rw [nativeText_eq]
    simp
  rw [nativeAttribute]
  split
  · rw [withAttribute, kindOf, hrest]
  · rw [withAttribute, if_neg hid, hrest]

theorem stands_id : Attributes.Stands "@id".toList (.bare "@id".toList) := by
  refine Attributes.stands_bare (by simp) ?_ (by decide)
  decide

theorem withAttribute_id (f : Field) :
    f.withAttribute (.bare "@id".toList) = .ok { f with isId := true } := by
  simp [withAttribute]

end Field

namespace Relation

/-- The attribute of a relation begins with its sign and ends with a parenthesis. -/
theorem render_eq (r : Relation) :
    r.render = "@relation(".toList ++ (joined [',', ' '] r.renderParts ++ [')']) :=
  List.append_assoc "@relation(".toList _ _

/-- Every character of the names and actions of the relation passes. -/
structure Each (r : Relation) (p : Char → Prop) : Prop where
  fields : ∀ names ∈ r.fields, ∀ item ∈ names, ∀ c ∈ item.toList, p c
  references : ∀ names ∈ r.references, ∀ item ∈ names, ∀ c ∈ item.toList, p c
  mapName : ∀ name ∈ r.mapName, ∀ c ∈ name.toList, p c
  onDelete : ∀ action ∈ r.onDelete, ∀ c ∈ action.toList, p c
  onUpdate : ∀ action ∈ r.onUpdate, ∀ c ∈ action.toList, p c

/-- What holds of the characters of a relation, of the keys and of the marks between them holds of
its whole text. -/
theorem Each.mem_joined {r : Relation} {p : Char → Prop} (h : r.Each p)
    (hword : ∀ key : PartKey, ∀ c ∈ key.word.toList, p c)
    (hmark : ∀ c ∈ [' ', ',', '[', ']', '"'], p c) :
    ∀ c ∈ joined [',', ' '] r.renderParts, p c := by
  have hlist : ∀ items : List String, (∀ item ∈ items, ∀ c ∈ item.toList, p c) →
      ∀ c ∈ renderList items, p c := by
    intro items hitems c hc
    rw [renderList, List.mem_append, List.mem_cons] at hc
    rcases hc with (rfl | hc) | hc
    · exact hmark _ (by simp)
    · refine Text.forall_mem_joined (fun d hd => hmark d ?_) (fun i hi => ?_) c hc
      · simp only [List.mem_cons, List.not_mem_nil, or_false] at hd ⊢
        tauto
      · obtain ⟨item, hitem, rfl⟩ := List.mem_map.1 hi
        exact hitems item hitem
    · obtain rfl : c = ']' := by simpa using hc
      exact hmark _ (by simp)
  refine Text.forall_mem_joined (fun d hd => hmark d ?_) fun text htext => ?_
  · simp only [List.mem_cons, List.not_mem_nil, or_false] at hd ⊢
    tauto
  rw [renderParts_eq] at htext
  obtain ⟨part, hpart, rfl⟩ := List.mem_map.1 htext
  have hvalue : ∀ c ∈ part.2, p c := by
    rcases mem_parts hpart with ⟨names, hn, rfl⟩ | ⟨names, hn, rfl⟩ | ⟨name, hn, rfl⟩
      | ⟨action, hn, rfl⟩ | ⟨action, hn, rfl⟩
    · exact hlist names (h.fields names hn)
    · exact hlist names (h.references names hn)
    · intro c hc
      simp only [List.cons_append, List.mem_cons, List.mem_append, List.not_mem_nil,
        or_false] at hc
      rcases hc with rfl | hc | rfl
      · exact hmark _ (by simp)
      · exact h.mapName name hn c hc
      · exact hmark _ (by simp)
    · exact h.onDelete action hn
    · exact h.onUpdate action hn
  intro c hc
  rw [partText, List.mem_append, List.mem_cons] at hc
  rcases hc with hc | rfl | hc
  · exact hword part.1 c hc
  · exact hmark _ (by simp)
  · exact hvalue c hc

/-- A relation without signs in its texts does not look like the mark for unique values. -/
theorem marked_render {r : Relation} (h : r.Each fun c => c ≠ '@') :
    UniqueFlag.marked false r.render = false := by
  have hinner : '@' ∉ joined [',', ' '] r.renderParts ++ [')'] := by
    have hparts : ∀ c ∈ joined [',', ' '] r.renderParts, c ≠ '@' := by
      refine h.mem_joined (fun key => ?_) (by decide)
      cases key <;> decide
    intro hmem
    rcases List.mem_append.1 hmem with hmem | hmem
    · exact hparts _ hmem rfl
    · cases List.mem_singleton.1 hmem
  have hshape : r.render =
      "@relation".toList ++ '(' :: (joined [',', ' '] r.renderParts ++ [')']) := by
    rw [render_eq]
    simp
  rw [hshape, UniqueFlag.marked_append_cons (by decide), UniqueFlag.marked_of_not_mem hinner]
  decide

/-- An item of a list that leaves the list one word after another. -/
structure ItemFits (item : String) : Prop where
  ne_nil : item.toList ≠ []
  noBlank : NoBlank item.toList
  noBracket : NoBracket item.toList

/-- A relation that is read back from its attribute within a line: items and actions are words
without brackets, and a map name is single-spaced without brackets and separators. -/
structure Fits (r : Relation) : Prop where
  fields : ∀ names ∈ r.fields, ∀ item ∈ names, ItemFits item
  references : ∀ names ∈ r.references, ∀ item ∈ names, ItemFits item
  mapName : ∀ name ∈ r.mapName,
    SingleSpaced name.toList ∧ NoBracket name.toList ∧ Text.Unseparated name.toList
  onDelete : ∀ action ∈ r.onDelete, NoBlank action.toList ∧ NoBracket action.toList
  onUpdate : ∀ action ∈ r.onUpdate, NoBlank action.toList ∧ NoBracket action.toList

theorem trimmed_of_noBlank {s : List Char} (h : NoBlank s) : Trimmed s :=
  Text.trim_eq_self (fun c hc => h c (List.mem_of_head? hc))
    fun c hc => h c (List.mem_of_getLast? hc)

theorem not_mem_space_of_noBlank {s : List Char} (h : NoBlank s) : ' ' ∉ s := fun hmem => by
  have := h ' ' hmem
  rw [Text.isBlank_space] at this
  cases this

theorem ItemFits.plainItem {item : String} (h : ItemFits item) : PlainItem item :=
  ⟨h.1, trimmed_of_noBlank h.2, h.3,
    Text.unseparated_of_not_mem_space (not_mem_space_of_noBlank h.2)⟩

theorem Fits.readable {r : Relation} (h : r.Fits) : r.Readable where
  fields names hn item hi := (h.fields names hn item hi).plainItem
  references names hn item hi := (h.references names hn item hi).plainItem
  mapName name hn := (h.mapName name hn).2
  onDelete action ha :=
    ⟨trimmed_of_noBlank (h.onDelete action ha).1, (h.onDelete action ha).2,
      Text.unseparated_of_not_mem_space (not_mem_space_of_noBlank (h.onDelete action ha).1)⟩
  onUpdate action ha :=
    ⟨trimmed_of_noBlank (h.onUpdate action ha).1, (h.onUpdate action ha).2,
      Text.unseparated_of_not_mem_space (not_mem_space_of_noBlank (h.onUpdate action ha).1)⟩

theorem ne_round_of_noBracket {s : List Char} (h : NoBracket s) :
    ∀ c ∈ s, c ≠ '(' ∧ c ≠ ')' := by
  intro c hc
  refine ⟨?_, ?_⟩ <;> rintro rfl
  · exact absurd (h _ hc).1 (by decide)
  · exact absurd (h _ hc).2 (by decide)

/-- A relation that fits has no round brackets of its own. -/
theorem Fits.each {r : Relation} (h : r.Fits) : r.Each fun c => c ≠ '(' ∧ c ≠ ')' where
  fields names hn item hi := ne_round_of_noBracket (h.fields names hn item hi).noBracket
  references names hn item hi := ne_round_of_noBracket (h.references names hn item hi).noBracket
  mapName name hn := ne_round_of_noBracket (h.mapName name hn).2.1
  onDelete action ha := ne_round_of_noBracket (h.onDelete action ha).2
  onUpdate action ha := ne_round_of_noBracket (h.onUpdate action ha).2

theorem singleSpaced_renderList {items : List String} (h : ∀ i ∈ items, ItemFits i) :
    SingleSpaced (renderList items) := by
  have hmark : ∀ c : Char, isBlank c = false → SingleSpaced [c] := by
    intro c hc
    refine NoBlank.singleSpaced fun d hd => ?_
    obtain rfl : d = c := by simpa using hd
    exact hc
  have hsep : SingleSpaced [',', ' '] := (hmark ',' rfl).append ⟨by simp, by simp⟩ (Or.inl (by simp))
  have hpieces : ∀ i ∈ items.map (·.toList), SingleSpaced i ∧ i.head? ≠ some ' ' := by
    intro i hi
    obtain ⟨item, hitem, rfl⟩ := List.mem_map.1 hi
    have hblank := (h item hitem).noBlank
    exact ⟨hblank.singleSpaced, fun hc => not_mem_space_of_noBlank hblank (List.mem_of_head? hc)⟩
  have hitems := Text.singleSpaced_joined hsep (by simp) (by simp) hpieces
  have htext : renderList items = ['['] ++ joined [',', ' '] (items.map (·.toList)) ++ [']'] := rfl
  rw [htext]
  exact ((hmark '[' rfl).append hitems.1 (Or.inr hitems.2)).append (hmark ']' rfl)
    (Or.inr (by simp))

theorem neutral_renderList {items : List String} (h : ∀ i ∈ items, NoBracket i.toList) :
    Balance.Neutral (renderList items) := by
  have hin : Balance.Neutral (joined [',', ' '] (items.map (·.toList))) := by
    refine Balance.neutral_of_noBracket (noBracket_joined fun i hi => ?_)
    obtain ⟨item, hitem, rfl⟩ := List.mem_map.1 hi
    exact h item hitem
  intro b
  have htext : renderList items =
      '[' :: (joined [',', ' '] (items.map (·.toList)) ++ [']']) := rfl
  rw [htext, Balance.add_cons, Balance.add_append, hin]
  simp [Balance.addChar]

theorem singleSpaced_partText (key : PartKey) {value : List Char} (h : SingleSpaced value)
    (hfirst : value.head? ≠ some ' ') : SingleSpaced (partText (key, value)) ∧
      (partText (key, value)).head? ≠ some ' ' := by
  have hword : NoBlank key.word.toList ∧ key.word.toList ≠ [] := by
    cases key <;> exact ⟨by decide, by decide⟩
  have hsep : SingleSpaced [' '] := ⟨by simp, by simp⟩
  have hlast : key.word.toList.getLast? ≠ some ' ' := fun hc =>
    not_mem_space_of_noBlank hword.1 (List.mem_of_getLast? hc)
  have htext : partText (key, value) = key.word.toList ++ [' '] ++ value := by simp [partText]
  rw [htext]
  refine ⟨(hword.1.singleSpaced.append hsep (Or.inl hlast)).append h (Or.inr hfirst), ?_⟩
  rw [List.append_assoc, List.head?_append_of_ne_nil _ hword.2]
  exact fun hc => not_mem_space_of_noBlank hword.1 (List.mem_of_head? hc)

/-- A relation that fits is single-spaced and closes what it opens, part by part. -/
theorem Fits.partText {r : Relation} (h : r.Fits) {text : List Char} (ht : text ∈ r.renderParts) :
    (SingleSpaced text ∧ text.head? ≠ some ' ') ∧ Balance.Neutral text := by
  have hblank : ∀ s : List Char, NoBlank s → s.head? ≠ some ' ' := fun s hs hc =>
    not_mem_space_of_noBlank hs (List.mem_of_head? hc)
  have hneutral : ∀ (key : PartKey) (value : List Char), Balance.Neutral value →
      Balance.Neutral (Relation.partText (key, value)) := by
    intro key value hvalue
    have htext : Relation.partText (key, value) = key.word.toList ++ [' '] ++ value := by
      simp [Relation.partText]
    rw [htext]
    exact (Balance.neutral_of_noBracket (noBracket_word key)).append hvalue
  rw [renderParts_eq] at ht
  obtain ⟨part, hpart, rfl⟩ := List.mem_map.1 ht
  rcases mem_parts hpart with ⟨names, hn, rfl⟩ | ⟨names, hn, rfl⟩ | ⟨name, hn, rfl⟩
    | ⟨action, hn, rfl⟩ | ⟨action, hn, rfl⟩
  · exact ⟨singleSpaced_partText _ (singleSpaced_renderList (h.fields names hn))
      (by simp [renderList]),
      hneutral _ _ (neutral_renderList fun i hi => (h.fields names hn i hi).noBracket)⟩
  · exact ⟨singleSpaced_partText _ (singleSpaced_renderList (h.references names hn))
      (by simp [renderList]),
      hneutral _ _ (neutral_renderList fun i hi => (h.references names hn i hi).noBracket)⟩
  · obtain ⟨hspaced, hbracket, -⟩ := h.mapName name hn
    have hquote : NoBlank ['"'] ∧ NoBracket ['"'] := by decide
    have htext : '"' :: name.toList ++ ['"'] = ['"'] ++ name.toList ++ ['"'] := rfl
    rw [htext]
    refine ⟨singleSpaced_partText _ ?_ (by simp), hneutral _ _ (Balance.neutral_of_noBracket
      ((hquote.2.append hbracket).append hquote.2))⟩
    exact (hquote.1.singleSpaced.append hspaced (Or.inl (by simp))).append hquote.1.singleSpaced
      (Or.inr (by simp))
  · exact ⟨singleSpaced_partText _ (h.onDelete action hn).1.singleSpaced
      (hblank _ (h.onDelete action hn).1),
      hneutral _ _ (Balance.neutral_of_noBracket (h.onDelete action hn).2)⟩
  · exact ⟨singleSpaced_partText _ (h.onUpdate action hn).1.singleSpaced
      (hblank _ (h.onUpdate action hn).1),
      hneutral _ _ (Balance.neutral_of_noBracket (h.onUpdate action hn).2)⟩

/-- What stands between the parentheses of a relation that fits is single-spaced. -/
theorem Fits.singleSpaced {r : Relation} (h : r.Fits) :
    SingleSpaced (joined [',', ' '] r.renderParts) := by
  have hsep : SingleSpaced [',', ' '] := by
    refine ⟨fun c hc hb => ?_, by simp⟩
    simp only [List.mem_cons, List.not_mem_nil, or_false] at hc
    rcases hc with rfl | rfl
    · cases hb
    · rfl
  exact (Text.singleSpaced_joined hsep (by simp) (by simp) fun piece hp => (h.partText hp).1).1

theorem Fits.noBreak {r : Relation} (h : r.Fits) : Text.NoBreak r.render := by
  have hmark : Text.NoBreak "@relation(".toList ∧ Text.NoBreak [')'] := by decide
  exact (hmark.1.append h.singleSpaced.noBreak).append hmark.2

/-- A relation that fits stands in a line as one attribute. -/
theorem Fits.stands {r : Relation} (h : r.Fits) :
    Attributes.Stands r.render (.bracketed r.render) := by
  have hneutral : Balance.Neutral (joined [',', ' '] r.renderParts) :=
    Balance.neutral_joined (Balance.neutral_of_noBracket (by decide))
      fun piece hp => (h.partText hp).2
  -- only the parenthesis around all parts counts as round, so it stays open up to the end
  have hround : ∀ c ∈ joined [',', ' '] r.renderParts, c ≠ '(' ∧ c ≠ ')' := by
    refine h.each.mem_joined (fun key => ?_) (by decide)
    cases key <;> decide
  refine Attributes.stands_parenthesised ?_ (by simp) (by decide) (by decide) h.singleSpaced
    (fun x y hxy => ?_) (by rw [hneutral]; rfl)
  · decide
  · have hx : '(' ∉ x ∧ ')' ∉ x := by
      have hmem : ∀ c ∈ x, c ≠ '(' ∧ c ≠ ')' := fun c hc => hround c (by rw [hxy]; simp [hc])
      exact ⟨fun hc => (hmem _ hc).1 rfl, fun hc => (hmem _ hc).2 rfl⟩
    have := Balance.round_add hx ⟨1, 0, 0⟩
    rw [Balance.isEven, this]
    rfl

end Relation

namespace Field

theorem withAttribute_relation (f : Field) {r : Relation} (h : r.Fits) :
    f.withAttribute (.bracketed r.render) = .ok { f with relation := some r } := by
  have hkind : kindOf r.render = .relation := by
    have hdb : after? "@db.".toList r.render = none := by
      rw [Relation.render_eq]
      simp [after?]
    have hrelation : Text.startsWith "@relation".toList r.render = true := by
      rw [Relation.render_eq]
      simp [Text.startsWith, after?]
    rw [kindOf, hdb, hrelation]
    rfl
  rw [withAttribute, hkind]
  simp only [Relation.parse_of_readable h.readable]
  rfl

end Field

end CatalogSync
