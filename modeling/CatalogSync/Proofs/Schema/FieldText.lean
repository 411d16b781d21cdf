import CatalogSync.Proofs.Schema.AttributeText

/-!
Field lines. A line is two columns, the name and the type, with the attributes behind them, a space
in front of each. Reading takes the mark for unique values out first; the words of what is left are
the name, the type, and the words of the other attributes, one attribute after another.
-/

namespace CatalogSync

open Text (isBlank joined words NoBlank NoTrailingBlank NoBreak)
open Attributes (spaced Stands)
open UniqueFlag (marked extract)

namespace Text

theorem words_append_spaced (s : List Char) (texts : List (List Char)) :
    words (s ++ spaced texts) = words s ++ texts.flatMap words := by
  induction texts generalizing s with
  | nil => simp [spaced]
  | cons t texts ih =>
    have hcons : s ++ spaced (t :: texts) = (s ++ ' ' :: t) ++ spaced texts := by
      simp [spaced]
    rw [hcons, ih, words_append_cons s t isBlank_space, List.flatMap_cons, List.append_assoc]

theorem noTrailingBlank_append_spaced {s : List Char} {texts : List (List Char)}
    (hs : texts = [] → NoTrailingBlank s) (h : ∀ t ∈ texts, t ≠ [] ∧ NoTrailingBlank t) :
    NoTrailingBlank (s ++ spaced texts) := by
  induction texts generalizing s with
  | nil => simpa [spaced] using hs rfl
  | cons t texts ih =>
    obtain ⟨hne, ht⟩ := h t List.mem_cons_self
    have hcons : s ++ spaced (t :: texts) = ((s ++ [' ']) ++ t) ++ spaced texts := by
      simp [spaced]
    rw [hcons]
    exact ih (fun _ => ht.append hne) fun u hu => h u (List.mem_cons_of_mem _ hu)

theorem replicate_append_cons (n : Nat) (t : List Char) :
    List.replicate n ' ' ++ ' ' :: t = ' ' :: (List.replicate n ' ' ++ t) := by
  induction n with
  | zero => rfl
  | succ n ih => rw [List.replicate_succ, List.cons_append, ih, List.cons_append]

/-- The spaces that fill a text up may stand behind the one that follows. -/
theorem padRight_append_cons (width : Nat) (s t : List Char) : padRight width s ++ ' ' :: t =
    s ++ ' ' :: (List.replicate (width - s.length) ' ' ++ t) := by
  rw [padRight, List.append_assoc, replicate_append_cons]

end Text

namespace UniqueFlag

theorem marked_append_spaced (afterSign : Bool) (s : List Char) (texts : List (List Char)) :
    marked afterSign (s ++ spaced texts) = (marked afterSign s || texts.any (marked false)) := by
  induction texts generalizing s with
  | nil => simp [spaced]
  | cons t texts ih =>
    have hcons : s ++ spaced (t :: texts) = (s ++ ' ' :: t) ++ spaced texts := by
      simp [spaced]
    rw [hcons, ih, marked_append_cons (by decide), List.any_cons, Bool.or_assoc]

theorem marked_replicate_append (n : Nat) (s : List Char) :
    marked false (List.replicate n ' ' ++ s) = marked false s := by
  induction n with
  | zero => rfl
  | succ n ih =>
    have hblank := marked_append_cons (c := ' ') (by decide) false []
    rw [List.replicate_succ, List.cons_append, ← List.nil_append (' ' :: _), hblank, ih]
    rfl

end UniqueFlag

namespace Field

/-- The mark of a key, where a field of a model with `ids` key fields shows it. -/
def idTexts (f : Field) (ids : Nat) : List (List Char) :=
  if f.isId ∧ ids = 1 then ["@id".toList] else []

/-- The attributes behind the mark for unique values. -/
def laterTexts (f : Field) : List (List Char) :=
  (f.defaultExpr.map fun e => defaultText e.toList).toList
    ++ (f.nativeType.map fun t => nativeText t.toList).toList
    ++ (f.relation.map Relation.render).toList

theorem mem_laterTexts {f : Field} {text : List Char} : text ∈ f.laterTexts ↔
    (∃ e ∈ f.defaultExpr, defaultText e.toList = text)
      ∨ (∃ t ∈ f.nativeType, nativeText t.toList = text) ∨ ∃ r ∈ f.relation, r.render = text := by
  simp only [laterTexts, List.mem_append, Option.mem_toList, Option.mem_def,
    Option.map_eq_some_iff, or_assoc]

theorem renderAttributes_eq (f : Field) (ids : Nat) : f.renderAttributes ids =
    f.idTexts ids ++ (f.unique.map UniqueFlag.render).toList ++ f.laterTexts := by
  simp only [renderAttributes, idTexts, laterTexts, List.append_assoc]
  rfl

/-- The name and the type of a field with spaces around them. -/
def columns (f : Field) (a b : Nat) : List Char :=
  fieldIndent ++ f.name.toList ++ ' ' :: (List.replicate a ' ' ++ f.type.toList
    ++ List.replicate b ' ')

/-- No text of the field ends with white space in its line. -/
structure Inked (f : Field) : Prop where
  type_ne_nil : f.type.toList ≠ []
  type : NoTrailingBlank f.type.toList
  native : ∀ t ∈ f.nativeType, NoTrailingBlank t.toList

theorem noTrailingBlank_uniqueFlag (u : UniqueFlag) : u.render ≠ [] ∧ NoTrailingBlank u.render := by
  have hsign : "@unique".toList ≠ [] ∧ NoTrailingBlank "@unique".toList := by decide
  have hclose : "\")".toList ≠ [] ∧ NoTrailingBlank "\")".toList := by decide
  obtain ⟨mapName⟩ := u
  cases mapName with
  | none => exact hsign
  | some name => exact ⟨List.append_ne_nil_of_right_ne_nil _ hclose.1, hclose.2.append hclose.1⟩

theorem noTrailingBlank_nativeText {t : List Char} (h : NoTrailingBlank t) :
    nativeText t ≠ [] ∧ NoTrailingBlank (nativeText t) := by
  have hsign : "@db.".toList ≠ [] ∧ NoTrailingBlank "@db.".toList := by decide
  rw [nativeText_eq]
  refine ⟨List.append_ne_nil_of_left_ne_nil hsign.1 _, ?_⟩
  cases t with
  | nil =>
    rw [List.append_nil]
    exact hsign.2
  | cons c t => exact h.append (List.cons_ne_nil c t)

theorem noTrailingBlank_renderAttributes {f : Field} (h : f.Inked) (ids : Nat) :
    ∀ t ∈ f.renderAttributes ids, t ≠ [] ∧ NoTrailingBlank t := by
  have hid : "@id".toList ≠ [] ∧ NoTrailingBlank "@id".toList := by decide
  have hparenthesis : ∀ s : List Char, s ++ [')'] ≠ [] ∧ NoTrailingBlank (s ++ [')']) := fun s =>
    ⟨List.append_ne_nil_of_right_ne_nil _ (List.cons_ne_nil _ _),
      Text.noTrailingBlank_append_cons rfl s⟩
  intro t ht
  rw [renderAttributes_eq, List.mem_append, List.mem_append, Option.mem_toList,
    Option.map_eq_some_iff, mem_laterTexts] at ht
  rcases ht with (ht | ⟨u, -, rfl⟩) | ⟨e, -, rfl⟩ | ⟨t, hn, rfl⟩ | ⟨r, -, rfl⟩
  · rw [idTexts] at ht
    split at ht
    · obtain rfl : t = "@id".toList := by simpa using ht
      exact hid
    · exact absurd ht List.not_mem_nil
  · exact noTrailingBlank_uniqueFlag u
  · exact hparenthesis _
  · exact noTrailingBlank_nativeText (h.native t hn)
  · exact hparenthesis _

/-- The line of a field is its two columns and its attributes; a type that no attributes follow is
not filled up, so that its line ends with it. -/
theorem line_eq {f : Field} (h : f.Inked) (nameWidth typeWidth ids : Nat) :
    fieldIndent ++ f.render nameWidth typeWidth ids =
      f.columns (nameWidth - f.name.toList.length)
        (if f.renderAttributes ids = [] then 0 else typeWidth - f.type.toList.length)
        ++ spaced (f.renderAttributes ids) := by
  set b := if f.renderAttributes ids = [] then 0 else typeWidth - f.type.toList.length with hb
  have htail : f.renderTail typeWidth ids =
      f.type.toList ++ List.replicate b ' ' ++ spaced (f.renderAttributes ids) := by
    rw [renderTail, hb]
    cases f.renderAttributes ids with
    | nil => simp [spaced]
    | cons t texts =>
      dsimp only
      rw [Attributes.cons_joined (List.cons_ne_nil t texts), Text.padRight,
        if_neg (List.cons_ne_nil t texts)]
  have hline : Text.padRight nameWidth f.name.toList ++ ' ' :: f.renderTail typeWidth ids =
      f.name.toList ++ ' ' :: (List.replicate (nameWidth - f.name.toList.length) ' '
        ++ f.type.toList ++ List.replicate b ' ') ++ spaced (f.renderAttributes ids) := by
    rw [Text.padRight_append_cons, htail]
    simp only [List.append_assoc, List.cons_append]
  rw [render, hline, Text.trimRight_eq_self, columns]
  · simp only [List.append_assoc]
  refine Text.noTrailingBlank_append_spaced (fun hnil => ?_)
    (noTrailingBlank_renderAttributes h ids)
  have hshape : f.name.toList ++ ' ' :: (List.replicate (nameWidth - f.name.toList.length) ' '
      ++ f.type.toList ++ List.replicate b ' ') = (f.name.toList ++ ' ' ::
        List.replicate (nameWidth - f.name.toList.length) ' ') ++ f.type.toList := by
    rw [hb, if_pos hnil]
    simp
  rw [hshape]
  exact h.type.append h.type_ne_nil

theorem exists_columns {f : Field} (h : f.Inked) (nameWidth typeWidth ids : Nat) :
    ∃ a b, fieldIndent ++ f.render nameWidth typeWidth ids =
      f.columns a b ++ spaced (f.renderAttributes ids) :=
  ⟨_, _, line_eq h nameWidth typeWidth ids⟩

/-- The words of the two columns are the name and the type. -/
theorem words_columns {f : Field} (hname : f.name.toList ≠ [] ∧ NoBlank f.name.toList)
    (htype : f.type.toList ≠ [] ∧ NoBlank f.type.toList) (a b : Nat) :
    words (f.columns a b) = [f.name.toList, f.type.toList] := by
  have hblank : ∀ n : Nat, ∀ c ∈ List.replicate n ' ', isBlank c = true := by
    intro n c hc
    obtain rfl := List.eq_of_mem_replicate hc
    rfl
  rw [columns, List.append_assoc, Text.words_append_of_all (by decide),
    Text.words_append_cons _ _ Text.isBlank_space, List.append_assoc,
    Text.words_append_of_all (hblank a), Text.words_append_right_of_all _ (hblank b),
    Text.words_of_noBlank hname.1 hname.2, Text.words_of_noBlank htype.1 htype.2]
  rfl

theorem marked_columns {f : Field} (hname : marked false f.name.toList = false)
    (htype : marked false f.type.toList = false) (a b : Nat) :
    marked false (f.columns a b) = false := by
  have hspaces : marked false (List.replicate b ' ') = false :=
    UniqueFlag.marked_of_not_mem (fun hmem => absurd (List.eq_of_mem_replicate hmem) (by decide)) _
  have htail : marked false (f.type.toList ++ List.replicate b ' ') = false := by
    cases b with
    | zero => simpa using htype
    | succ b =>
      rw [List.replicate_succ, UniqueFlag.marked_append_cons (by decide), htype, Bool.false_or,
        ← UniqueFlag.marked_replicate_append 1]
      exact hspaces
  have hindent : fieldIndent = List.replicate 2 ' ' := rfl
  rw [columns, List.append_assoc, hindent, UniqueFlag.marked_replicate_append,
    UniqueFlag.marked_append_cons (by decide), hname, Bool.false_or, List.append_assoc,
    UniqueFlag.marked_replicate_append, htail]

/-! ### Reading the line -/

/-- The mark for unique values is taken out of a line, and the words of all else stay. -/
theorem extract_line {f : Field} {pre : List Char} (ids : Nat) (hpre : marked false pre = false)
    (hquote : ∀ u ∈ f.unique, ∀ name ∈ u.mapName, '"' ∉ name.toList)
    (hlater : f.unique = none → ∀ t ∈ f.laterTexts, marked false t = false) :
    ∃ rest, extract (pre ++ spaced (f.renderAttributes ids)) = (rest, f.unique) ∧
      words rest = words pre ++ (f.idTexts ids ++ f.laterTexts).flatMap words := by
  have hid : marked false (pre ++ spaced (f.idTexts ids)) = false := by
    rw [UniqueFlag.marked_append_spaced, hpre, Bool.false_or, idTexts]
    split <;> decide
  cases hu : f.unique with
  | none =>
    refine ⟨pre ++ spaced (f.idTexts ids ++ f.laterTexts), ?_, Text.words_append_spaced pre _⟩
    have htexts : f.renderAttributes ids = f.idTexts ids ++ f.laterTexts := by
      rw [renderAttributes_eq, hu]
      simp
    rw [htexts, extract, UniqueFlag.extractFrom_of_marked_eq_false]
    rw [Attributes.spaced_append, ← List.append_assoc, UniqueFlag.marked_append_spaced, hid,
      Bool.false_or, List.any_eq_false]
    intro t ht
    rw [hlater hu t ht]
    simp
  | some u =>
    refine ⟨(pre ++ spaced (f.idTexts ids)) ++ ' ' :: spaced f.laterTexts, ?_, ?_⟩
    · have htexts : pre ++ spaced (f.renderAttributes ids) =
          (pre ++ spaced (f.idTexts ids)) ++ ' ' :: (u.render ++ spaced f.laterTexts) := by
        rw [renderAttributes_eq, hu]
        simp [spaced]
      have hhead : (spaced f.laterTexts).head? ≠ some '(' := by
        cases f.laterTexts <;> simp [spaced]
      rw [htexts, UniqueFlag.extract_append_render u hid (hquote u hu) hhead]
    · rw [Text.words_append_cons _ _ Text.isBlank_space, Text.words_append_spaced,
        List.flatMap_append, List.append_assoc]
      exact congrArg (fun ws => words pre ++ ((f.idTexts ids).flatMap words ++ ws))
        (Text.words_append_spaced [] f.laterTexts)

/-- The name and the type of a line are words, so the check of the field that they make passes. -/
theorem make_ofNameAndType {s name type : List Char} {ws : List (List Char)}
    (h : words s = name :: type :: ws) (unique : Option UniqueFlag) :
    (ofNameAndType name type unique).make = .ok (ofNameAndType name type unique) := by
  have hne : ∀ w ∈ [name, type], String.ofList w ≠ "" := by
    intro w hw hempty
    refine (Text.mem_words (s := s) (w := w) ?_).1 (by simpa using hempty)
    rw [h]
    simp only [List.mem_cons, List.not_mem_nil, or_false] at hw ⊢
    tauto
  exact make_eq_ok (hne name (by simp)) (hne type (by simp))

/-- A line is read as its first two words and the attributes that the others make up. -/
theorem parse_of_words {line rest name type : List Char} {unique : Option UniqueFlag}
    {ws : List (List Char)} (hextract : extract line = (rest, unique))
    (hwords : words rest = name :: type :: ws) : Field.parse line =
      ((ofNameAndType name type unique).withAttributes (Attributes.ofWords ws).closed).map
        fun f => if (Attributes.ofWords ws).isOpen then none else some f := by
  rw [Field.parse, hextract]
  simp only [hwords, make_ofNameAndType hwords, Except.bind]
  split <;> rename_i h <;> rw [h] <;> rfl

/-- The attributes of a field in its line, the mark for unique values left out. -/
def attributes (f : Field) (ids : Nat) : List Attribute :=
  (if f.isId ∧ ids = 1 then [.bare "@id".toList] else [])
    ++ (f.defaultExpr.map fun e => .bracketed (defaultText e.toList)).toList
    ++ (f.nativeType.map fun t => nativeAttribute t.toList).toList
    ++ (f.relation.map fun r => .bracketed r.render).toList

/-- Each attribute is read back on its own. -/
structure AttributesFit (f : Field) : Prop where
  default : ∀ e ∈ f.defaultExpr, DefaultFits e.toList
  native : ∀ t ∈ f.nativeType, NativeFits t.toList
  relation : ∀ r ∈ f.relation, r.Fits

theorem stands_attributes {f : Field} (h : f.AttributesFit) (ids : Nat) :
    List.Forall₂ Stands (f.idTexts ids ++ f.laterTexts) (f.attributes ids) := by
  have hid : List.Forall₂ Stands (f.idTexts ids)
      (if f.isId ∧ ids = 1 then [.bare "@id".toList] else []) := by
    rw [idTexts]
    split
    · exact .cons stands_id .nil
    · exact .nil
  have hdefault : List.Forall₂ Stands (f.defaultExpr.map fun e => defaultText e.toList).toList
      (f.defaultExpr.map fun e => .bracketed (defaultText e.toList)).toList := by
    cases hd : f.defaultExpr with
    | none => exact .nil
    | some e => exact .cons (stands_defaultText (h.default e hd)) .nil
  have hnative : List.Forall₂ Stands (f.nativeType.map fun t => nativeText t.toList).toList
      (f.nativeType.map fun t => nativeAttribute t.toList).toList := by
    cases hn : f.nativeType with
    | none => exact .nil
    | some t => exact .cons (stands_nativeText (h.native t hn)) .nil
  have hrelation : List.Forall₂ Stands (f.relation.map Relation.render).toList
      (f.relation.map fun r => .bracketed r.render).toList := by
    cases hr : f.relation with
    | none => exact .nil
    | some r => exact .cons (h.relation r hr).stands .nil
  rw [laterTexts, attributes, List.append_assoc, List.append_assoc, List.append_assoc]
  exact List.rel_append hid (List.rel_append hdefault (List.rel_append hnative hrelation))

theorem withAttributes_append (f : Field) (as bs : List Attribute) :
    f.withAttributes (as ++ bs) = (f.withAttributes as).bind fun g => g.withAttributes bs := by
  induction as generalizing f with
  | nil => rfl
  | cons a as ih =>
    rw [List.cons_append, withAttributes, withAttributes]
    cases f.withAttribute a with
    | error e => rfl
    | ok g => exact ih g

/-- An optional attribute is added where it is present, and nothing is where it is absent. -/
theorem withAttributes_optional {α : Type} (f : Field) {write : α → Attribute} {add : α → Field}
    {o : Option α} (h : ∀ a ∈ o, f.withAttribute (write a) = .ok (add a)) :
    f.withAttributes (o.map write).toList = .ok (o.elim f add) := by
  cases o with
  | none => rfl
  | some a =>
    rw [Option.map_some, Option.toList_some, withAttributes, h a rfl]
    rfl

/-- The attributes of a field say all about it that its name, its type and the mark for unique
values do not. -/
theorem withAttributes_attributes {f : Field} (h : f.AttributesFit) (ids : Nat) {g : Field}
    (hg : g.isId = false ∧ g.defaultExpr = none ∧ g.nativeType = none ∧ g.relation = none) :
    g.withAttributes (f.attributes ids) = .ok { g with
      isId := decide (f.isId ∧ ids = 1)
      defaultExpr := f.defaultExpr
      nativeType := f.nativeType
      relation := f.relation } := by
  obtain ⟨name, type, isArray, isRequired, isId, unique, defaultExpr, nativeType, relation⟩ := g
  obtain ⟨rfl, rfl, rfl, rfl⟩ := hg
  set shown := decide (f.isId ∧ ids = 1) with hshown
  have hid : withAttributes ⟨name, type, isArray, isRequired, false, unique, none, none, none⟩
      (if f.isId ∧ ids = 1 then [.bare "@id".toList] else []) =
      .ok ⟨name, type, isArray, isRequired, shown, unique, none, none, none⟩ := by
    by_cases hid : f.isId ∧ ids = 1
    · rw [if_pos hid, withAttributes, withAttribute_id, hshown, decide_eq_true hid]
      rfl
    · rw [if_neg hid, hshown, decide_eq_false hid]
      rfl
  have hdefault : withAttributes ⟨name, type, isArray, isRequired, shown, unique, none, none, none⟩
      (f.defaultExpr.map fun e => .bracketed (defaultText e.toList)).toList =
      .ok ⟨name, type, isArray, isRequired, shown, unique, f.defaultExpr, none, none⟩ := by
    rw [withAttributes_optional _ fun e _ => withAttribute_defaultText _ e.toList]
    cases f.defaultExpr with
    | none => rfl
    | some e => rw [Option.elim_some, String.ofList_toList]
  have hnative : withAttributes
      ⟨name, type, isArray, isRequired, shown, unique, f.defaultExpr, none, none⟩
      (f.nativeType.map fun t => nativeAttribute t.toList).toList =
      .ok ⟨name, type, isArray, isRequired, shown, unique, f.defaultExpr, f.nativeType, none⟩ := by
    rw [withAttributes_optional _ fun t _ => withAttribute_nativeAttribute _ t.toList]
    cases f.nativeType with
    | none => rfl
    | some t => rw [Option.elim_some, String.ofList_toList]
  have hrelation : withAttributes
      ⟨name, type, isArray, isRequired, shown, unique, f.defaultExpr, f.nativeType, none⟩
      (f.relation.map fun r => .bracketed r.render).toList =
      .ok ⟨name, type, isArray, isRequired, shown, unique, f.defaultExpr, f.nativeType,
        f.relation⟩ := by
    rw [withAttributes_optional _ fun r hr => withAttribute_relation _ (h.relation r hr)]
    cases f.relation <;> rfl
  simp only [attributes, withAttributes_append, hid, hdefault, hnative, hrelation, Except.bind]

/-- A field whose line says all about it. -/
structure Legible (f : Field) : Prop where
  name : f.name.toList ≠ [] ∧ NoBlank f.name.toList
  type : f.type.toList ≠ [] ∧ NoBlank f.type.toList
  unmarked : marked false f.name.toList = false ∧ marked false f.type.toList = false
  isArray : f.isArray = Text.contains TypeRule.arrayMarker.toList f.type.toList
  isRequired : f.isRequired = !Text.contains TypeRule.optionalMarker.toList f.type.toList
  quote : ∀ u ∈ f.unique, ∀ name ∈ u.mapName, '"' ∉ name.toList
  attributes : f.AttributesFit
  later : f.unique = none → ∀ t ∈ f.laterTexts, marked false t = false

theorem Legible.inked {f : Field} (h : f.Legible) : f.Inked where
  type_ne_nil := h.type.1
  type := h.type.2.noTrailingBlank
  native t ht := (h.attributes.native t ht).noBlank.noTrailingBlank

/-- The line of a field is read as the field, marked as key where the line shows it. -/
theorem parse_line {f : Field} (h : f.Legible) (nameWidth typeWidth ids : Nat) :
    Field.parse (fieldIndent ++ f.render nameWidth typeWidth ids) =
      .ok (some { f with isId := decide (f.isId ∧ ids = 1) }) := by
  obtain ⟨a, b, hline⟩ := exists_columns h.inked nameWidth typeWidth ids
  obtain ⟨rest, hextract, hwords⟩ := extract_line ids
    (marked_columns h.unmarked.1 h.unmarked.2 a b) h.quote h.later
  rw [words_columns h.name h.type, List.cons_append, List.cons_append, List.nil_append] at hwords
  have hattributes := Attributes.ofWords_flatMap (stands_attributes h.attributes ids)
  rw [hline, parse_of_words hextract hwords, hattributes,
    withAttributes_attributes h.attributes ids ⟨rfl, rfl, rfl, rfl⟩]
  simp [Except.map, ofNameAndType, h.isArray, h.isRequired]

/-- No text of the field breaks its line. -/
structure OneLine (f : Field) : Prop where
  name : NoBreak f.name.toList
  type : NoBreak f.type.toList
  unique : ∀ u ∈ f.unique, ∀ name ∈ u.mapName, NoBreak name.toList
  default : ∀ e ∈ f.defaultExpr, NoBreak e.toList
  native : ∀ t ∈ f.nativeType, NoBreak t.toList
  relation : ∀ r ∈ f.relation, NoBreak r.render

theorem OneLine.noBreak_renderAttributes {f : Field} (h : f.OneLine) (ids : Nat) :
    ∀ t ∈ f.renderAttributes ids, NoBreak t := by
  have hmarks : NoBreak "@id".toList ∧ NoBreak "@unique".toList ∧
      NoBreak "@unique(map: \"".toList ∧ NoBreak "\")".toList ∧ NoBreak "@default(".toList ∧
      NoBreak [')'] ∧ NoBreak "@db.".toList := by
    decide
  obtain ⟨hid, hflag, hmap, hend, hdefault, hclose, hnative⟩ := hmarks
  intro t ht
  rw [renderAttributes_eq, List.mem_append, List.mem_append, Option.mem_toList,
    Option.map_eq_some_iff, mem_laterTexts] at ht
  rcases ht with (ht | ⟨u, hu, rfl⟩) | ⟨e, he, rfl⟩ | ⟨t, hn, rfl⟩ | ⟨r, hr, rfl⟩
  · rw [idTexts] at ht
    split at ht
    · obtain rfl : t = "@id".toList := by simpa using ht
      exact hid
    · exact absurd ht List.not_mem_nil
  · have hname := h.unique u hu
    obtain ⟨mapName⟩ := u
    cases mapName with
    | none => exact hflag
    | some name => exact (hmap.append (hname name rfl)).append hend
  · exact (hdefault.append (h.default e he)).append hclose
  · exact hnative.append (h.native t hn)
  · exact h.relation r hr

theorem OneLine.noBreak_renderTail {f : Field} (h : f.OneLine) (typeWidth ids : Nat) :
    NoBreak (f.renderTail typeWidth ids) := by
  have hattributes := h.noBreak_renderAttributes ids
  rw [renderTail]
  cases hnone : f.renderAttributes ids with
  | nil => exact h.type
  | cons a as =>
    rw [hnone] at hattributes
    refine (h.type.padRight typeWidth).append ?_
    exact List.forall_mem_cons.2 ⟨by decide, Text.forall_mem_joined (by decide) hattributes⟩

/-- A line has no break where no text of its field has one. -/
theorem noBreak_line {f : Field} (h : f.OneLine) (nameWidth typeWidth ids : Nat) :
    NoBreak (fieldIndent ++ f.render nameWidth typeWidth ids) := by
  have hindent : NoBreak fieldIndent := by decide
  have hwhole : NoBreak (Text.padRight nameWidth f.name.toList ++ ' ' :: f.renderTail typeWidth ids) :=
    (h.name.padRight nameWidth).append
      (List.forall_mem_cons.2 ⟨by decide, h.noBreak_renderTail typeWidth ids⟩)
  exact hindent.append (hwhole.of_isInfix (Text.trimRight_prefix _).isInfix)

end Field

end CatalogSync
