import CatalogSync.Proofs.Collect
import CatalogSync.Proofs.Schema.Parsed

/-!
Lines that are read as what they were written from. A line that holds a default expression and a
native type gives both back only where each of them stands as one attribute: the attributes of a
line hold all its words, so where both texts are among them there is no room for anything else.
-/

namespace CatalogSync

open Text (isBlank cutWhere joined words NoBlank SingleSpaced NoTrailingBlank)
open UniqueFlag (marked extract)

namespace Attributes

/-! ### Room for attributes -/

theorem le_length_spaced {a : List Char} {l : List (List Char)} (h : a ∈ l) :
    a.length + 1 ≤ (spaced l).length := by
  induction l with
  | nil => exact absurd h List.not_mem_nil
  | cons b l ih =>
    rw [spaced_cons, List.length_append, List.length_cons]
    rcases List.mem_cons.1 h with rfl | h
    · omega
    · have := ih h
      omega

theorem add_le_length_spaced {a b : List Char} {l : List (List Char)} (ha : a ∈ l) (hb : b ∈ l)
    (hne : a ≠ b) : a.length + 1 + (b.length + 1) ≤ (spaced l).length := by
  induction l with
  | nil => exact absurd ha List.not_mem_nil
  | cons c l ih =>
    rw [spaced_cons, List.length_append, List.length_cons]
    rcases List.mem_cons.1 ha with hac | hal <;> rcases List.mem_cons.1 hb with hbc | hbl
    · exact absurd (hac.trans hbc.symm) hne
    · have := le_length_spaced hbl
      rw [← hac]
      omega
    · have := le_length_spaced hal
      rw [← hbc]
      omega
    · have := ih hal hbl
      omega

theorem length_spaced_cutWhere {p : Char → Bool} (s : List Char) :
    (spaced (cutWhere p s)).length = s.length + 1 := by
  induction s with
  | nil => rfl
  | cons c s ih =>
    rw [cutWhere]
    split
    · rw [spaced_cons, List.length_append, ih]
      simp
      omega
    · obtain ⟨first, others, hcut⟩ := List.exists_cons_of_ne_nil (Text.cutWhere_ne_nil p s)
      rw [hcut] at ih ⊢
      rw [spaced_cons, List.length_append, List.length_cons] at ih ⊢
      rw [List.length_cons, List.length_cons]
      omega

theorem length_spaced_filter_le (p : List Char → Bool) (l : List (List Char)) :
    (spaced (l.filter p)).length ≤ (spaced l).length := by
  induction l with
  | nil => exact Nat.le_refl _
  | cons a l ih =>
    rw [List.filter_cons]
    split
    · rw [spaced_cons, spaced_cons, List.length_append, List.length_append]
      omega
    · rw [spaced_cons, List.length_append]
      omega

/-- The words of a text take no more room than the text. -/
theorem length_spaced_words_le (s : List Char) : (spaced (words s)).length ≤ s.length + 1 := by
  rw [← length_spaced_cutWhere (p := isBlank) s]
  exact length_spaced_filter_le _ _

theorem prefix_joined (w : List Char) (ws : List (List Char)) : w <+: joined [' '] (w :: ws) := by
  cases ws with
  | nil => exact List.prefix_refl w
  | cons next ws =>
    rw [joined, List.append_assoc]
    exact List.prefix_append _ _

/-- A group of words and the attributes behind it fill no more room than the text and the word behind
the text, where these hold all the words. -/
theorem length_group_le {d : List Char} {next : Option (List Char)} {group later : List (List Char)}
    (hgroup : group ≠ []) (hsplit : words d ++ next.toList = group ++ later)
    (hclosed : (ofWords later).isOpen = false) :
    (joined [' '] group).length + 1 + (spaced ((ofWords later).closed.map Attribute.text)).length ≤
      d.length + 1 + (spaced next.toList).length := by
  have hall := congrArg (fun ws => (spaced ws).length) hsplit
  have hjoined := congrArg List.length (cons_joined hgroup)
  have hwords := length_spaced_words_le d
  simp only [spaced_append, List.length_append, List.length_cons] at hall hjoined
  rw [ofWords, spaced_collect hclosed, List.reverse_nil, List.nil_append]
  omega

/-- Behind a group of its own words a text is no attribute: the group leaves no room for it, neither
alone nor besides the word behind the text. `pre` tells the text from that word. -/
theorem not_mem_behind_group {pre d : List Char} {next : Option (List Char)}
    {group later : List (List Char)} (hgroup : group ≠ [])
    (hsplit : words d ++ next.toList = group ++ later) (hclosed : (ofWords later).isOpen = false)
    (hd : pre <+: d) (hnext : ∀ w ∈ next, ¬pre <+: w)
    (hother : ∀ w ∈ next, ∃ a ∈ (ofWords later).closed, a.text = w) :
    .bracketed d ∉ (ofWords later).closed := by
  intro hmem
  have hroom := length_group_le hgroup hsplit hclosed
  have hlater : d ∈ (ofWords later).closed.map Attribute.text := List.mem_map.2 ⟨_, hmem, rfl⟩
  cases next with
  | none =>
    have := le_length_spaced hlater
    simp only [Option.toList_none, spaced, List.flatMap_nil, List.length_nil] at hroom this
    omega
  | some w =>
    have hdiffer : d ≠ w := by
      rintro rfl
      exact hnext d rfl hd
    have := add_le_length_spaced hlater (List.mem_map.2 (hother w rfl)) hdiffer
    simp only [Option.toList_some, spaced_cons, List.length_append, List.length_cons] at hroom
    simp only [spaced, List.flatMap_nil, List.length_nil] at hroom this
    omega

/-- A text that opens a bracket in its first word is found as a whole among the attributes of its
words and one word more only where it stands as one attribute: the words leave no room for another
attribute besides it. `pre` tells the text from the word that follows. -/
theorem closesAfter_of_mem (pre : List Char) {d : List Char} {next : Option (List Char)}
    (hpre : NoBlank pre) (hopen : pre.any isOpener = true) (hd : pre <+: d)
    (hnext : ∀ w ∈ next, (w ≠ [] ∧ NoBlank w) ∧ ¬pre <+: w)
    (hclosed : (ofWords (words d ++ next.toList)).isOpen = false)
    (hmem : .bracketed d ∈ (ofWords (words d ++ next.toList)).closed)
    (hother : ∀ w ∈ next, ∃ a ∈ (ofWords (words d ++ next.toList)).closed, a.text = w) :
    joined [' '] (words d) = d ∧ Balance.ClosesAfter {} (words d) ∧
      (ofWords next.toList).isOpen = false := by
  have hne : pre ≠ [] := by
    rintro rfl
    cases hopen
  obtain ⟨w, us, hfirst, hw⟩ : ∃ w us, words d = w :: us ∧ pre <+: w := by
    obtain ⟨tail, rfl⟩ := hd
    exact exists_words_eq_cons hpre hne tail
  have hwopen : w.any isOpener = true := by
    obtain ⟨tail, rfl⟩ := hw
    rw [List.any_append, hopen, Bool.true_or]
  obtain ⟨group, later, hsplit, hcloses, hcollect⟩ :=
    exists_collect_eq_push (.inr ⟨w, by rw [hfirst]; rfl, hwopen⟩) hclosed
  have hattributes : ofWords (words d ++ next.toList) =
      (ofWords later).push (.bracketed (joined [' '] group)) := hcollect
  rw [hattributes, push_isOpen] at hclosed
  rw [hattributes, push_closed] at hmem hother
  have hgroup : group ≠ [] := by
    rintro rfl
    exact hcloses.elim
  -- the first attribute begins like the text, so it is not the word behind the text
  have hbegins : pre <+: joined [' '] group := by
    obtain ⟨v, vs, rfl⟩ := List.exists_cons_of_ne_nil hgroup
    obtain rfl : w = v := by
      rw [hfirst] at hsplit
      exact (List.cons.inj hsplit).1
    exact hw.trans (prefix_joined w vs)
  have hwhole : joined [' '] group = d := by
    rcases List.mem_cons.1 hmem with hmem | hmem
    · exact (Attribute.bracketed.inj hmem).symm
    · refine absurd hmem (not_mem_behind_group hgroup hsplit hclosed hd
        (fun u hu => (hnext u hu).2) fun u hu => ?_)
      obtain ⟨a, ha, rfl⟩ := hother u hu
      rcases List.mem_cons.1 ha with rfl | ha
      · exact absurd hbegins (hnext _ hu).2
      · exact ⟨a, ha, rfl⟩
  have hwordsOf : ∀ u ∈ group, u ≠ [] ∧ NoBlank u := by
    intro u hu
    have hmem : u ∈ words d ++ next.toList := by
      rw [hsplit]
      exact List.mem_append_left _ hu
    rcases List.mem_append.1 hmem with hmem | hmem
    · exact Text.mem_words hmem
    · exact (hnext u (by simpa using hmem)).1
  have hwords : words d = group := by
    rw [← hwhole]
    exact Text.words_joined hwordsOf
  rw [hwords] at hsplit ⊢
  refine ⟨hwhole, hcloses, ?_⟩
  rw [List.append_cancel_left hsplit]
  exact hclosed

end Attributes

namespace Field

theorem defaultFits_of_closesAfter {e : List Char}
    (hjoined : joined [' '] (words (defaultText e)) = defaultText e)
    (hcloses : Balance.ClosesAfter {} (words (defaultText e))) : DefaultFits e := by
  obtain ⟨hspaced, hfirst, hlast⟩ := Text.singleSpaced_joined_words fun w (hw : w ∈ words
    (defaultText e)) => Text.mem_words hw
  rw [hjoined] at hspaced hfirst hlast
  have hne : defaultText e ≠ [] := List.append_ne_nil_of_right_ne_nil _ (List.cons_ne_nil _ _)
  have hhead : (defaultText e).head? ≠ some ' ' := fun hc => by
    have := hfirst ' ' hc
    cases this
  have hend : (defaultText e).getLast? ≠ some ' ' := fun hc => by
    have := hlast ' ' hc
    cases this
  rw [Text.words_eq_cutWhere hspaced hne hhead hend,
    Balance.closesAfter_cutWhere_iff hspaced.1] at hcloses
  obtain ⟨hinner, heven⟩ := (Balance.closesAtEnd_parenthesised (by decide) (by decide)).1 hcloses
  exact ⟨hspaced.of_isInfix ⟨"@default(".toList, [')'], rfl⟩, hinner, heven⟩

/-- Only its expression can make the attribute of a default look like the mark for unique values. -/
theorem marked_defaultText (e : List Char) : marked false (defaultText e) = marked false e := by
  have hshape : defaultText e = "@default".toList ++ '(' :: (e ++ ')' :: []) := by
    rw [defaultText_eq]
    simp
  rw [hshape, UniqueFlag.marked_append_cons (by decide), UniqueFlag.marked_append_cons (by decide)]
  have hsign : marked false "@default".toList = false := by decide
  rw [hsign, UniqueFlag.marked, Bool.or_false, Bool.false_or]

theorem marked_nativeText (t : List Char) : marked false (nativeText t) = marked false t := by
  have hshape : nativeText t = "@db".toList ++ '.' :: t := by
    rw [nativeText_eq]
    simp
  have hsign : marked false "@db".toList = false := by decide
  rw [hshape, UniqueFlag.marked_append_cons (by decide), hsign, Bool.false_or]

/-- The default expression and the native type of a field are read back from its line: the one
stands as an argument in parentheses, the other closes what it opens, and without a mark for unique
values of its own the line shows none. -/
@[mk_iff]
structure ReadsBack (f : Field) : Prop where
  default : ∀ e ∈ f.defaultExpr, DefaultFits e.toList
  native : ∀ t ∈ f.nativeType,
    t.toList.any isOpener = true → (Balance.add {} t.toList).isEven = true
  default_unmarked : f.unique = none → ∀ e ∈ f.defaultExpr, marked false e.toList = false
  native_unmarked : f.unique = none → ∀ t ∈ f.nativeType, marked false t.toList = false

theorem readsBack_of_none {f : Field} (hdefault : f.defaultExpr = none)
    (hnative : f.nativeType = none) : f.ReadsBack := by
  rw [readsBack_iff, hdefault, hnative]
  simp

/-- The columns of a line that holds the field's name and type as its first words, whatever
attributes follow. -/
structure Columned (f : Field) : Prop where
  name : f.name.toList ≠ [] ∧ NoBlank f.name.toList
  type : f.type.toList ≠ [] ∧ NoBlank f.type.toList
  unmarked : marked false f.name.toList = false ∧ marked false f.type.toList = false
  isArray : f.isArray = Text.contains TypeRule.arrayMarker.toList f.type.toList
  isRequired : f.isRequired = !Text.contains TypeRule.optionalMarker.toList f.type.toList
  quote : ∀ u ∈ f.unique, ∀ name ∈ u.mapName, '"' ∉ name.toList
  native : ∀ t ∈ f.nativeType, NoBlank t.toList

theorem Columned.inked {f : Field} (h : f.Columned) : f.Inked :=
  ⟨h.type.1, h.type.2.noTrailingBlank, fun t ht => (h.native t ht).noTrailingBlank⟩

/-- A line that gives no mark for unique values has no attribute that looks like one. -/
theorem Columned.marked_laterTexts {f g : Field} (h : f.Columned) {nameWidth typeWidth ids : Nat}
    (hread : Field.parse (fieldIndent ++ f.render nameWidth typeWidth ids) = .ok (some g))
    (hunique : g.unique = f.unique) (hnone : f.unique = none) :
    ∀ t ∈ f.laterTexts, marked false t = false := by
  obtain ⟨a, b, hline⟩ := exists_columns h.inked nameWidth typeWidth ids
  obtain ⟨rest, name, type, ws, hextract, -⟩ := exists_of_parse hread
  have hmarked : marked false (f.columns a b ++ Attributes.spaced (f.renderAttributes ids)) =
      false := by
    rw [← hline, ← UniqueFlag.isSome_extractFrom, ← extract, hextract, hunique, hnone]
    rfl
  rw [UniqueFlag.marked_append_spaced, Bool.or_eq_false_iff, List.any_eq_false] at hmarked
  intro t ht
  have hmem : t ∈ f.renderAttributes ids := by
    rw [renderAttributes_eq]
    exact List.mem_append_right _ ht
  simpa using hmarked.2 t hmem

/-- The mark of a key says nothing about a default and a native type, so the attributes behind it do. -/
theorem SaidBy.behind_id {g f : Field} {ids as : List Attribute} (h : SaidBy g (ids ++ as) f)
    (hids : ∀ a ∈ ids, a = .bare "@id".toList) (hdefault : g.defaultExpr = none)
    (hnative : g.nativeType = none) :
    (∀ e ∈ f.defaultExpr, .bracketed (defaultText e.toList) ∈ as) ∧
      ∀ t ∈ f.nativeType, ∃ a ∈ as, a.text = nativeText t.toList := by
  constructor
  · intro e he
    have hmem := (h.default e he).resolve_left (by simp [hdefault])
    rcases List.mem_append.1 hmem with hmem | hmem
    · cases hids _ hmem
    · exact hmem
  · intro t ht
    obtain ⟨a, hmem, htext⟩ := (h.native t ht).resolve_left (by simp [hnative])
    rcases List.mem_append.1 hmem with hmem | hmem
    · rw [hids a hmem, nativeText_eq] at htext
      simp [Attribute.text] at htext
    · exact ⟨a, hmem, htext⟩

/-- The words of a line behind its name, its type and its mark of a key are those of its other
attributes, and these give its default expression and its native type. -/
theorem Columned.exists_ofWords {f g : Field} (h : f.Columned) {nameWidth typeWidth ids : Nat}
    (hread : Field.parse (fieldIndent ++ f.render nameWidth typeWidth ids) = .ok (some g))
    (hunique : g.unique = f.unique) :
    (Attributes.ofWords (f.laterTexts.flatMap words)).isOpen = false ∧
      (∀ e ∈ g.defaultExpr, .bracketed (defaultText e.toList) ∈
        (Attributes.ofWords (f.laterTexts.flatMap words)).closed) ∧
      ∀ t ∈ g.nativeType, ∃ a ∈ (Attributes.ofWords (f.laterTexts.flatMap words)).closed,
        a.text = nativeText t.toList := by
  obtain ⟨a, b, hline⟩ := exists_columns h.inked nameWidth typeWidth ids
  obtain ⟨rest, hextract, hwords⟩ := extract_line ids (marked_columns h.unmarked.1 h.unmarked.2 a b)
    h.quote fun hnone => h.marked_laterTexts hread hunique hnone
  obtain ⟨rest', name, type, ws, hextract', hwords', hopen, hattributes⟩ := exists_of_parse hread
  rw [hline, hextract, Prod.mk.injEq] at hextract'
  obtain ⟨rfl, -⟩ := hextract'
  rw [words_columns h.name h.type, hwords'] at hwords
  obtain ⟨rfl, htail⟩ := List.cons.inj hwords
  obtain ⟨rfl, hws⟩ := List.cons.inj htail
  have hid : Attributes.ofWords ws = ⟨(if f.isId ∧ ids = 1 then [.bare "@id".toList] else [])
      ++ (Attributes.ofWords (f.laterTexts.flatMap words)).closed,
      (Attributes.ofWords (f.laterTexts.flatMap words)).isOpen⟩ := by
    have hws' : ws = (f.idTexts ids ++ f.laterTexts).flatMap words := hws
    rw [hws', List.flatMap_append, idTexts]
    split
    · have := stands_id (f.laterTexts.flatMap words)
      rw [List.flatMap_cons, List.flatMap_nil, List.append_nil, Attributes.ofWords, this]
      rfl
    · rfl
  rw [hid] at hopen hattributes
  refine ⟨hopen, (saidBy_of_withAttributes hattributes).behind_id (fun a ha => ?_) rfl rfl⟩
  split at ha
  · exact List.mem_singleton.1 ha
  · exact absurd ha List.not_mem_nil

/-- The native type of a field, as it stands in its line. -/
def nativeWord? (f : Field) : Option (List Char) := f.nativeType.map fun t => nativeText t.toList

/-- The native type stands as one word, which begins otherwise than the attribute of a default. -/
theorem Columned.of_mem_nativeWord? {f : Field} (h : f.Columned) :
    ∀ w ∈ f.nativeWord?, (w ≠ [] ∧ NoBlank w) ∧ ¬"@default(".toList <+: w := by
  intro w hw
  obtain ⟨t, ht, rfl⟩ := Option.map_eq_some_iff.1 hw
  have hsign : NoBlank "@db.".toList := by decide
  refine ⟨⟨by simp [nativeText_eq], hsign.append (h.native t ht)⟩, ?_⟩
  rw [nativeText_eq]
  simp

/-- Where no relation follows, the native type is the last word of the line. -/
theorem Columned.flatMap_words_laterTexts {f : Field} (h : f.Columned) (hrelation : f.relation = none) :
    f.laterTexts.flatMap words =
      ((f.defaultExpr.map fun e => words (defaultText e.toList)).getD []) ++ f.nativeWord?.toList := by
  have hlast : f.nativeWord?.toList.flatMap words = f.nativeWord?.toList := by
    cases hnative : f.nativeWord? with
    | none => rfl
    | some w =>
      obtain ⟨hw, -⟩ := h.of_mem_nativeWord? w hnative
      simp [Text.words_of_noBlank hw.1 hw.2]
  rw [laterTexts, hrelation, List.flatMap_append, List.flatMap_append, ← nativeWord?, hlast]
  cases f.defaultExpr <;> simp

/-- A line gives its default expression back only where this stands as one attribute, which leaves the
native type behind it to itself. -/
theorem Columned.defaultFits {f g : Field} (h : f.Columned) (hrelation : f.relation = none)
    {nameWidth typeWidth ids : Nat}
    (hread : Field.parse (fieldIndent ++ f.render nameWidth typeWidth ids) = .ok (some g))
    (hunique : g.unique = f.unique) (hdefault : g.defaultExpr = f.defaultExpr)
    (hnative : g.nativeType = f.nativeType) :
    (∀ e ∈ f.defaultExpr, DefaultFits e.toList) ∧
      (Attributes.ofWords f.nativeWord?.toList).isOpen = false := by
  obtain ⟨hopen, hmem, hother⟩ := h.exists_ofWords hread hunique
  rw [h.flatMap_words_laterTexts hrelation] at hopen hmem hother
  rw [hdefault] at hmem
  rw [hnative] at hother
  cases hexpr : f.defaultExpr with
  | none =>
    rw [hexpr] at hopen
    exact ⟨fun _ he => (Option.not_mem_none _ he).elim, hopen⟩
  | some e =>
    rw [hexpr, Option.map_some, Option.getD_some] at hopen hmem hother
    have hword : ∀ w ∈ f.nativeWord?, ∃ a ∈
        (Attributes.ofWords (words (defaultText e.toList) ++ f.nativeWord?.toList)).closed, a.text = w := by
      intro w hw
      obtain ⟨t, ht, rfl⟩ := Option.map_eq_some_iff.1 hw
      exact hother t ht
    obtain ⟨hjoined, hcloses, hrest⟩ := Attributes.closesAfter_of_mem "@default(".toList
      (by decide) (by decide) ⟨e.toList ++ [')'], by rw [defaultText_eq, List.append_assoc]⟩
      h.of_mem_nativeWord? hopen (hmem e rfl) hword
    refine ⟨fun e' he' => ?_, hrest⟩
    obtain rfl : e = e' := by simpa using he'
    exact defaultFits_of_closesAfter hjoined hcloses

theorem even_of_ofWords_nativeText {t : List Char}
    (h : (Attributes.ofWords [nativeText t]).isOpen = false) (hopen : t.any isOpener = true) :
    (Balance.add {} t).isEven = true := by
  have hany : (nativeText t).any isOpener = true := by
    rw [nativeText_eq, List.any_append, hopen, Bool.or_true]
  have hbalance : Balance.add {} (nativeText t) = Balance.add {} t := by
    have hsign : Balance.add {} "@db.".toList = {} := by decide
    rw [nativeText_eq, Balance.add_append, hsign]
  rw [Attributes.ofWords, Attributes.collect, if_neg (by simp [hany]), hbalance] at h
  cases heven : (Balance.add {} t).isEven with
  | true => rfl
  | false => simp [heven, Attributes.collect] at h

/-- A line gives its default expression and its native type back only where they are read back. -/
theorem Columned.readsBack {f g : Field} (h : f.Columned) (hrelation : f.relation = none)
    {nameWidth typeWidth ids : Nat}
    (hread : Field.parse (fieldIndent ++ f.render nameWidth typeWidth ids) = .ok (some g))
    (hunique : g.unique = f.unique) (hdefault : g.defaultExpr = f.defaultExpr)
    (hnative : g.nativeType = f.nativeType) : f.ReadsBack := by
  obtain ⟨hfits, hopen⟩ := h.defaultFits hrelation hread hunique hdefault hnative
  have hmarked := h.marked_laterTexts hread hunique
  refine ⟨hfits, fun t ht hany => ?_, fun hnone e he => ?_, fun hnone t ht => ?_⟩
  · refine even_of_ofWords_nativeText ?_ hany
    rw [nativeWord?, ht] at hopen
    exact hopen
  · rw [← marked_defaultText]
    exact hmarked hnone _ (mem_laterTexts.2 (Or.inl ⟨e, he, rfl⟩))
  · rw [← marked_nativeText]
    exact hmarked hnone _ (mem_laterTexts.2 (Or.inr (Or.inl ⟨t, ht, rfl⟩)))

/-- Where default expression and native type are read back, so is the whole field. -/
theorem Columned.legible {f : Field} (h : f.Columned) (hback : f.ReadsBack)
    (hrelation : ∀ r ∈ f.relation, r.Fits ∧ marked false r.render = false) : f.Legible where
  name := h.name
  type := h.type
  unmarked := h.unmarked
  isArray := h.isArray
  isRequired := h.isRequired
  quote := h.quote
  attributes :=
    { default := hback.default
      native := fun t ht => ⟨h.native t ht, hback.native t ht⟩
      relation := fun r hr => (hrelation r hr).1 }
  later hnone text htext := by
    rcases mem_laterTexts.1 htext with ⟨e, he, rfl⟩ | ⟨t, ht, rfl⟩ | ⟨r, hr, rfl⟩
    · rw [marked_defaultText]
      exact hback.default_unmarked hnone e he
    · rw [marked_nativeText]
      exact hback.native_unmarked hnone t ht
    · exact (hrelation r hr).2

end Field

namespace Model

/-- Each field of a model that is read back is read back from its own line, apart from its mark of
a key. -/
theorem exists_of_reread {m : Model} (hdirectives : ∀ d ∈ m.directives, DirectiveFits d.toList)
    (h : m.reread = .ok m) {f : Field} (hf : f ∈ m.fields) :
    ∃ g, Field.parse (m.fieldLine f) = .ok (some g) ∧ f = { g with isId := f.isId } := by
  have hmarks := congrArg Model.fields (eq_finish_of_reread h)
  rw [finish_eq] at hmarks
  dsimp only at hmarks
  rw [filterMap_fieldOf?_renderBody hdirectives] at hmarks
  have hsame : (m.fields.filterMap fun f => fieldOf? (m.fieldLine f)).map
      (fun f => { f with isId := false }) = m.fields.map fun f => { f with isId := false } := by
    conv_rhs => rw [hmarks]
    exact (map_markFirst (fun _ _ => rfl) _ _).symm
  obtain ⟨g, hg, heq⟩ := exists_of_map_filterMap_eq hsame f hf
  refine ⟨g, (parse_of_fieldOf? hg).2, ?_⟩
  obtain ⟨name, type, isArray, isRequired, isId, unique, defaultExpr, nativeType, relation⟩ := g
  obtain ⟨name', type', isArray', isRequired', isId', unique', default', native', relation'⟩ := f
  simpa [eq_comm] using heq

end Model

end CatalogSync
