import CatalogSync.Proofs.Catalog.TypeRule
import CatalogSync.Proofs.Schema.Brackets
import CatalogSync.Proofs.Text.Casing
import CatalogSync.Proofs.Text.Marks
import Mathlib.Data.List.Find

/-!
The types that a catalog has, against the rules that map them. A type is a keyword, perhaps with a size joined
to it, and modifiers behind it; it may be spelled with any white space between its words and in any letter case.
Keywords start one another and the first rule that applies decides, so a rule in the wrong place would take the
types of a later one. None does: each type of the list has the native name and the field type that the list
gives it, whatever its size and its modifiers are.
-/

namespace CatalogSync.TypeRule

open Attributes (spaced cons_joined spaced_cons)
open Text (after? atWordEnd isAsciiOrBlank isBlank joined startsWith trim words NoBlank)

/-! ### Spellings -/

/-- Words, each in any letter case and with white space in front, and white space behind the last. -/
inductive SpelledAfter : List (List Char) → List Char → Prop
  | nil {run : List Char} (hrun : ∀ c ∈ run, isBlank c = true) : SpelledAfter [] run
  | cons {run letters tail word : List Char} {rest : List (List Char)} (hne : run ≠ [])
      (hrun : ∀ c ∈ run, isBlank c = true) (hletters : letters.map Char.toLower = word)
      (h : SpelledAfter rest tail) : SpelledAfter (word :: rest) (run ++ letters ++ tail)

/-- A word and others behind it, with white space between them and perhaps around them. -/
def Spelled (word : List Char) (rest : List (List Char)) (s : List Char) : Prop :=
  ∃ run letters tail, s = run ++ letters ++ tail ∧ (∀ c ∈ run, isBlank c = true) ∧
    letters.map Char.toLower = word ∧ SpelledAfter rest tail

/-- A word of ASCII. -/
structure IsWord (word : List Char) : Prop where
  ne_nil : word ≠ []
  ascii : ∀ c ∈ word, c.toNat < 0x80
  noBlank : NoBlank word

theorem isAsciiOrBlank_of_isBlank {c : Char} (h : isBlank c = true) : isAsciiOrBlank c = true := by
  rw [isAsciiOrBlank, h, Bool.or_true]

/-- The letters of a word, in whatever case, are ASCII and no white space. -/
theorem IsWord.of_map {letters : List Char} (h : IsWord (letters.map Char.toLower)) :
    letters ≠ [] ∧ NoBlank letters ∧ ∀ c ∈ letters, isAsciiOrBlank c = true := by
  refine ⟨fun hnil => h.ne_nil (by rw [hnil]; rfl), fun c hc => ?_, fun c hc => ?_⟩
  · rw [← Text.isBlank_toLower]
    exact h.noBlank _ (List.mem_map_of_mem hc)
  · have hascii := Text.toNat_lt_of_toLower (h.ascii _ (List.mem_map_of_mem hc))
    rw [isAsciiOrBlank, decide_eq_true hascii, Bool.true_or]

theorem SpelledAfter.isBlank_head? {rest : List (List Char)} {s : List Char} (h : SpelledAfter rest s) :
    ∀ c ∈ s.head?, isBlank c = true := by
  cases h with
  | nil hrun => exact fun c hc => hrun c (List.mem_of_head? hc)
  | @cons run letters tail word rest hne hrun hletters h =>
    intro c hc
    rw [List.append_assoc, List.head?_append_of_ne_nil _ hne] at hc
    exact hrun c (List.mem_of_head? hc)

/-- A word behind white space, and in front of a text that begins with white space, is the first word. -/
theorem words_run_append {run letters tail : List Char} (hrun : ∀ c ∈ run, isBlank c = true)
    (hne : letters ≠ []) (hletters : NoBlank letters) (htail : ∀ c ∈ tail.head?, isBlank c = true) :
    words (run ++ letters ++ tail) = letters :: words tail := by
  rw [List.append_assoc, Text.words_append_of_all hrun]
  cases tail with
  | nil => rw [List.append_nil, Text.words_of_noBlank hne hletters, Text.words_nil]
  | cons c tail =>
    have hc := htail c rfl
    have hblank : ∀ d ∈ [c], isBlank d = true := by simpa using hc
    rw [Text.words_append_cons _ _ hc, Text.words_of_noBlank hne hletters, ← List.singleton_append,
      ← Text.words_append_of_all hblank]
    rfl

theorem SpelledAfter.words_eq {rest : List (List Char)} {s : List Char} (h : SpelledAfter rest s)
    (hrest : ∀ w ∈ rest, IsWord w) :
    (words s).map (List.map Char.toLower) = rest ∧ ∀ c ∈ s, isAsciiOrBlank c = true := by
  induction h with
  | nil hrun =>
    rw [Text.words_of_all hrun]
    exact ⟨rfl, fun c hc => isAsciiOrBlank_of_isBlank (hrun c hc)⟩
  | @cons run letters tail word rest hne hrun hletters h ih =>
    subst hletters
    obtain ⟨hword, hrest⟩ := List.forall_mem_cons.1 hrest
    obtain ⟨hne', hletters, hascii⟩ := hword.of_map
    obtain ⟨hwords, htail⟩ := ih hrest
    refine ⟨?_, fun c hc => ?_⟩
    · rw [words_run_append hrun hne' hletters h.isBlank_head?, List.map_cons, hwords]
    · simp only [List.mem_append] at hc
      rcases hc with (hc | hc) | hc
      · exact isAsciiOrBlank_of_isBlank (hrun c hc)
      · exact hascii c hc
      · exact htail c hc

/-- However a text of words is spelled, its normal form is the words in lower case, one space apart. -/
theorem normalise_of_spelled {word : List Char} {rest : List (List Char)} {s : List Char}
    (hword : IsWord word) (hrest : ∀ w ∈ rest, IsWord w) (h : Spelled word rest s) :
    normalise s = word ++ spaced rest := by
  obtain ⟨run, letters, tail, rfl, hrun, rfl, htail⟩ := h
  obtain ⟨hne, hletters, hascii⟩ := hword.of_map
  obtain ⟨hwords, hasciiTail⟩ := htail.words_eq hrest
  have hall : ∀ c ∈ trim (run ++ letters ++ tail), isAsciiOrBlank c = true := by
    intro c hc
    have hmem := (Text.isInfix_trim _).subset hc
    simp only [List.mem_append] at hmem
    rcases hmem with (hmem | hmem) | hmem
    · exact isAsciiOrBlank_of_isBlank (hrun c hmem)
    · exact hascii c hmem
    · exact hasciiTail c hmem
  have hjoined : ' ' :: joined [' '] (letters.map Char.toLower :: rest) =
      ' ' :: (letters.map Char.toLower ++ spaced rest) := by
    rw [cons_joined (List.cons_ne_nil _ _), spaced_cons]
    rfl
  rw [normalise, Text.lower_eq_map hall, Text.words_map Text.isBlank_toLower, Text.words_trim,
    words_run_append hrun hne hletters htail.isBlank_head?, List.map_cons, hwords]
  exact (List.cons.inj hjoined).2

/-! ### Types of a catalog -/

/-- A keyword with what it maps to: a native name and a field type. -/
structure BasicType where
  keyword : String
  native : String
  fieldType : String
  isInteger : Bool := false

/-- The keywords of a catalog. -/
def basicTypes : List BasicType :=
  [⟨"tinyint", "TinyInt", "Int", true⟩, ⟨"smallint", "SmallInt", "Int", true⟩,
    ⟨"mediumint", "MediumInt", "Int", true⟩, ⟨"bigint", "BigInt", "Int", true⟩,
    ⟨"int", "Int", "Int", true⟩, ⟨"float", "Float", "Float", false⟩,
    ⟨"double", "Double", "Float", false⟩, ⟨"decimal", "Decimal", "Decimal", false⟩,
    ⟨"datetime", "DateTime", "DateTime", false⟩, ⟨"timestamp", "Timestamp", "DateTime", false⟩,
    ⟨"date", "Date", "DateTime", false⟩, ⟨"time", "Time", "DateTime", false⟩,
    ⟨"year", "Year", "Int", false⟩, ⟨"bit", "Bit", "String", false⟩,
    ⟨"varchar", "VarChar", "String", false⟩, ⟨"char", "Char", "String", false⟩,
    ⟨"tinytext", "TinyText", "String", false⟩, ⟨"mediumtext", "MediumText", "String", false⟩,
    ⟨"longtext", "LongText", "String", false⟩, ⟨"text", "Text", "String", false⟩,
    ⟨"varbinary", "VarBinary", "String", false⟩, ⟨"binary", "Binary", "String", false⟩,
    ⟨"tinyblob", "TinyBlob", "String", false⟩, ⟨"mediumblob", "MediumBlob", "String", false⟩,
    ⟨"longblob", "LongBlob", "String", false⟩, ⟨"blob", "Blob", "String", false⟩,
    ⟨"json", "Json", "Json", false⟩]

/-- A row of digits. -/
structure IsNumeral (n : List Char) : Prop where
  ne_nil : n ≠ []
  digits : ∀ c ∈ n, c.isDigit = true

/-- What may be joined to a keyword: nothing, a width, or a precision with a scale. -/
inductive Size : List Char → Prop
  | none : Size []
  | width {n : List Char} (hn : IsNumeral n) : Size ('(' :: n ++ [')'])
  | scaled {n k : List Char} (hn : IsNumeral n) (hk : IsNumeral k) :
      Size ('(' :: n ++ ',' :: k ++ [')'])

/-- What may stand behind a type. -/
def modifiers : List String := ["signed", "unsigned", "zerofill"]

/-! ### What stands behind a keyword -/

/-- What begins a size or parts a modifier. -/
def beginsTail (c : Char) : Bool := c = '(' || c = ' '

variable {size : List Char} {ms : List (List Char)}

theorem Size.beginsTail_head? (h : Size size) (ms : List (List Char)) :
    ∀ c ∈ (size ++ spaced ms).head?, beginsTail c = true := by
  cases h with
  | none => cases ms <;> simp [spaced, beginsTail]
  | width => simp [beginsTail]
  | scaled => simp [beginsTail]

theorem isAscii_of_isDigit {c : Char} (h : c.isDigit = true) :
    c.toNat < 0x80 ∧ isBlank c = false ∧ Text.isDigit c = true := by
  have hcode : c.val.toNat = c.toNat := rfl
  have hrange : 0x30 ≤ c.toNat ∧ c.toNat ≤ 0x39 := by
    simp [Char.isDigit, UInt32.le_iff_toNat_le, hcode] at h
    exact h
  have hascii : c.toNat < 0x80 := by omega
  refine ⟨hascii, ?_, ?_⟩
  · simp only [isBlank, Bool.or_eq_false_iff, Bool.and_eq_false_iff, decide_eq_false_iff_not,
      beq_eq_false_iff_ne]
    omega
  · rw [Text.isDigit, if_pos hascii, h]

/-- A size is ASCII without white space. -/
theorem Size.ascii (h : Size size) : ∀ c ∈ size, c.toNat < 0x80 ∧ isBlank c = false := by
  have hmarks : ∀ c ∈ ['(', ')', ','], c.toNat < 0x80 ∧ isBlank c = false := by decide
  have hdigits : ∀ {n}, IsNumeral n → ∀ c ∈ n, c.toNat < 0x80 ∧ isBlank c = false := by
    intro n hn c hc
    obtain ⟨hascii, hblank, -⟩ := isAscii_of_isDigit (hn.digits c hc)
    exact ⟨hascii, hblank⟩
  intro c hc
  cases h with
  | none => cases hc
  | width hn =>
    simp only [List.cons_append, List.mem_cons, List.mem_append, List.not_mem_nil, or_false] at hc
    rcases hc with rfl | hc | rfl
    · exact hmarks _ (by simp)
    · exact hdigits hn c hc
    · exact hmarks _ (by simp)
  | scaled hn hk =>
    simp only [List.cons_append, List.append_assoc, List.mem_cons, List.mem_append, List.not_mem_nil,
      or_false] at hc
    rcases hc with rfl | hc | rfl | hc | rfl
    · exact hmarks _ (by simp)
    · exact hdigits hn c hc
    · exact hmarks _ (by simp)
    · exact hdigits hk c hc
    · exact hmarks _ (by simp)

/-- A text is cut where a test fails for the first time. -/
theorem takeWhile_dropWhile_append {p : Char → Bool} {s tail : List Char} (hs : ∀ c ∈ s, p c = true)
    (htail : ∀ c ∈ tail.head?, p c = false) :
    (s ++ tail).takeWhile p = s ∧ (s ++ tail).dropWhile p = tail := by
  rw [List.takeWhile_append_of_pos hs, List.dropWhile_append_of_pos hs]
  cases tail with
  | nil => exact ⟨List.append_nil s, rfl⟩
  | cons c tail =>
    have hc : ¬p c = true := by simp [htail c rfl]
    rw [List.takeWhile_cons_of_neg hc, List.dropWhile_cons_of_neg hc]
    exact ⟨List.append_nil s, rfl⟩

/-- A numeral ends at the first character that is no digit. -/
theorem IsNumeral.cut {n : List Char} (hn : IsNumeral n) {c : Char} (hc : Text.isDigit c = false)
    (rest : List Char) : (n ++ c :: rest).takeWhile Text.isDigit = n ∧
      (n ++ c :: rest).dropWhile Text.isDigit = c :: rest :=
  takeWhile_dropWhile_append (fun d hd => (isAscii_of_isDigit (hn.digits d hd)).2.2)
    fun d hd => by simpa [← Option.some.inj hd] using hc

/-- A width is passed over, anything else stays. -/
theorem afterSize_append (h : Size size) (ms : List (List Char)) :
    afterSize (size ++ spaced ms) = if ',' ∈ size then size ++ spaced ms else spaced ms := by
  cases h with
  | none => cases ms <;> rfl
  | @width n hn =>
    have hbracket : Text.isDigit ')' = false := by decide
    obtain ⟨htake, hdrop⟩ := hn.cut hbracket (spaced ms)
    have hcomma : ',' ∉ '(' :: n ++ [')'] := by
      intro hmem
      simp at hmem
      exact absurd (hn.digits _ hmem) (by decide)
    obtain ⟨d, ds, rfl⟩ := List.exists_cons_of_ne_nil hn.ne_nil
    rw [if_neg hcomma]
    simp only [List.cons_append, List.append_assoc, List.nil_append, afterSize] at htake hdrop ⊢
    rw [htake, hdrop]
    rfl
  | @scaled n k hn hk =>
    have hmark : Text.isDigit ',' = false := by decide
    obtain ⟨htake, hdrop⟩ := hn.cut hmark (k ++ ')' :: spaced ms)
    have hcomma : ',' ∈ '(' :: n ++ ',' :: k ++ [')'] := by simp
    rw [if_pos hcomma]
    simp only [List.cons_append, List.append_assoc, List.nil_append, afterSize] at htake hdrop ⊢
    rw [htake, hdrop]
    split
    next heq => simp at heq
    next => rfl

/-- A modifier is a word, and the word unsigned starts it only where it is that word. -/
theorem of_mem_modifiers {m : String} (h : m ∈ modifiers) : IsWord m.toList ∧ ∀ rest,
    after? "unsigned".toList (m.toList ++ rest) = if m = "unsigned" then some rest else none := by
  have hwords : ∀ m ∈ modifiers, m.toList ≠ [] ∧ (∀ c ∈ m.toList, c.toNat < 0x80) ∧
      ∀ c ∈ m.toList, isBlank c = false := by
    decide +kernel
  obtain ⟨hne, hascii, hblank⟩ := hwords m h
  refine ⟨⟨hne, hascii, hblank⟩, fun rest => ?_⟩
  simp only [modifiers, List.mem_cons, List.not_mem_nil, or_false] at h
  rcases h with rfl | rfl | rfl <;> rfl

/-- The word unsigned is found where it is the first modifier and no scale stands in front. -/
theorem afterUnsigned?_append (hsize : Size size) {ms : List String} (hms : ∀ m ∈ ms, m ∈ modifiers) :
    afterUnsigned? (afterSize (size ++ spaced (ms.map (·.toList)))) =
      if ',' ∉ size ∧ ms.head? = some "unsigned" then some (spaced (ms.tail.map (·.toList)))
      else none := by
  rw [afterSize_append hsize]
  by_cases hcomma : ',' ∈ size
  · rw [if_pos hcomma, if_neg fun h => h.1 hcomma]
    cases hsize with
    | none => cases hcomma
    | width => rfl
    | scaled => rfl
  · rw [if_neg hcomma]
    cases ms with
    | nil => simp [spaced, afterUnsigned?]
    | cons m ms =>
      obtain ⟨hm, -⟩ := List.forall_mem_cons.1 hms
      obtain ⟨hword, hafter⟩ := of_mem_modifiers hm
      obtain ⟨c, cs, hletters⟩ := List.exists_cons_of_ne_nil hword.ne_nil
      have hc : isBlank c = false := hword.noBlank c (by simp [hletters])
      have hskip : (m.toList ++ spaced (ms.map (·.toList))).dropWhile isBlank =
          m.toList ++ spaced (ms.map (·.toList)) := by
        rw [hletters, List.cons_append, List.dropWhile_cons_of_neg (by simp [hc])]
      rw [List.map_cons, spaced_cons, List.cons_append, afterUnsigned?, if_pos Text.isBlank_space,
        hskip, hafter]
      simp [hcomma]

/-! ### The first rule that applies -/

/-- A mark starts a text where it starts its front, unless it goes on with what follows the front. -/
theorem after?_append_tail {mark s tail : List Char} (h : ∀ c ∈ tail.head?, c ∉ mark) :
    after? mark (s ++ tail) = (after? mark s).map (· ++ tail) := by
  induction mark generalizing s with
  | nil => rfl
  | cons c mark ih =>
    cases s with
    | nil =>
      cases tail with
      | nil => rfl
      | cons d tail =>
        have hd : c ≠ d := fun hcd => h d rfl (by simp [hcd])
        simp [after?, hd]
    | cons d s =>
      have hmark : ∀ e ∈ tail.head?, e ∉ mark := fun e he hmem => h e he (List.mem_cons_of_mem c hmem)
      by_cases hcd : c = d
      · simp only [List.cons_append, after?, hcd, if_true]
        exact ih hmark
      · simp [after?, hcd]

theorem not_mem_keyword {r : NativeRule} (hr : r ∈ nativeRules) {c : Char} (hc : beginsTail c = true) :
    c ∉ r.keyword.toList := by
  have hall : ∀ r ∈ nativeRules, '(' ∉ r.keyword.toList ∧ ' ' ∉ r.keyword.toList := by decide +kernel
  rw [beginsTail, Bool.or_eq_true, decide_eq_true_eq, decide_eq_true_eq] at hc
  rcases hc with rfl | rfl
  · exact (hall r hr).1
  · exact (hall r hr).2

theorem findSome?_filter_of {α β : Type} {f : α → Option β} {p : α → Bool} {l : List α}
    (h : ∀ a ∈ l, p a = false → f a = none) : (l.filter p).findSome? f = l.findSome? f := by
  induction l with
  | nil => rfl
  | cons a l ih =>
    obtain ⟨ha, hl⟩ := List.forall_mem_cons.1 h
    cases hp : p a with
    | true => rw [List.filter_cons_of_pos hp, List.findSome?_cons, List.findSome?_cons, ih hl]
    | false => rw [List.filter_cons_of_neg (by simp [hp]), List.findSome?_cons, ha hp, ih hl]

deriving instance DecidableEq for NativeRule

/-- The rules for a type: where it is an integer, the one for its unsigned form, then the one for the
keyword. -/
def BasicType.rules (k : BasicType) : List NativeRule :=
  (if k.isInteger then [⟨k.keyword, true, "Unsigned" ++ k.native⟩] else []) ++
    [⟨k.keyword, false, k.native⟩]

/-- Among the rules whose keyword starts that of a type, its own come first. -/
theorem rules_prefix {k : BasicType} (hk : k ∈ basicTypes) :
    k.rules <+: nativeRules.filter fun r => startsWith r.keyword.toList k.keyword.toList := by
  have hall : ∀ k ∈ basicTypes,
      k.rules <+: nativeRules.filter fun r => startsWith r.keyword.toList k.keyword.toList := by
    decide +kernel
  exact hall k hk

/-- Its own rules decide about a type, whatever is joined to its keyword. -/
theorem findSome?_rules {k : BasicType} (hk : k ∈ basicTypes) {tail : List Char}
    (htail : ∀ c ∈ tail.head?, beginsTail c = true) :
    nativeRules.findSome? (·.replaced? (k.keyword.toList ++ tail)) =
      k.rules.findSome? (·.replaced? (k.keyword.toList ++ tail)) := by
  have hothers : ∀ r ∈ nativeRules, startsWith r.keyword.toList k.keyword.toList = false →
      r.replaced? (k.keyword.toList ++ tail) = none := by
    intro r hr hstart
    have hnone : after? r.keyword.toList k.keyword.toList = none := by
      simpa [startsWith] using hstart
    have hafter := after?_append_tail (s := k.keyword.toList)
      fun c hc => not_mem_keyword hr (htail c hc)
    rw [hnone] at hafter
    rw [NativeRule.replaced?, NativeRule.rest?, hafter]
    rfl
  obtain ⟨later, hlater⟩ := rules_prefix hk
  have hplain : (k.rules.findSome? (·.replaced? (k.keyword.toList ++ tail))).isSome = true := by
    refine List.findSome?_isSome_iff.2 ⟨⟨k.keyword, false, k.native⟩, by simp [BasicType.rules], ?_⟩
    simp [NativeRule.replaced?, NativeRule.rest?, Text.after?_append]
  rw [← findSome?_filter_of hothers, ← hlater, List.findSome?_append, Option.or_of_isSome hplain]

/-- What the rules of a type give: its unsigned native name where unsigned is the first modifier and no scale
stands in front, and else its native name with the size. -/
theorem findSome?_replaced? {k : BasicType} (hsize : Size size) {ms : List String}
    (hms : ∀ m ∈ ms, m ∈ modifiers) :
    k.rules.findSome? (·.replaced? (k.keyword.toList ++ (size ++ spaced (ms.map (·.toList))))) =
      some (if k.isInteger ∧ ',' ∉ size ∧ ms.head? = some "unsigned" then
        ("Unsigned" ++ k.native).toList ++ spaced (ms.tail.map (·.toList))
      else k.native.toList ++ (size ++ spaced (ms.map (·.toList)))) := by
  have hplain : NativeRule.replaced? ⟨k.keyword, false, k.native⟩
      (k.keyword.toList ++ (size ++ spaced (ms.map (·.toList)))) =
      some (k.native.toList ++ (size ++ spaced (ms.map (·.toList)))) := by
    simp [NativeRule.replaced?, NativeRule.rest?, Text.after?_append]
  have hunsigned : NativeRule.replaced? ⟨k.keyword, true, "Unsigned" ++ k.native⟩
      (k.keyword.toList ++ (size ++ spaced (ms.map (·.toList)))) =
      if ',' ∉ size ∧ ms.head? = some "unsigned" then
        some (("Unsigned" ++ k.native).toList ++ spaced (ms.tail.map (·.toList)))
      else none := by
    simp only [NativeRule.replaced?, NativeRule.rest?, Text.after?_append, if_true,
      afterUnsigned?_append hsize hms]
    split <;> rfl
  rw [BasicType.rules]
  cases hinteger : k.isInteger with
  | false => simp [hplain]
  | true =>
    rw [if_pos rfl, List.findSome?_append, List.findSome?_singleton, List.findSome?_singleton,
      hunsigned, hplain]
    by_cases h : ',' ∉ size ∧ ms.head? = some "unsigned"
    · rw [if_pos h, if_pos ⟨rfl, h⟩]
      rfl
    · rw [if_neg h, if_neg fun hall => h hall.2]
      rfl

/-! ### Field types -/

/-- What follows a keyword decides about no rule for whole words. -/
theorem fits_append {keyword : String} {s tail : List Char}
    (hkeyword : ∀ c, beginsTail c = true → c ∉ keyword.toList)
    (htail : ∀ c ∈ tail.head?, beginsTail c = true) :
    FieldRule.fits true keyword (s ++ tail) = FieldRule.fits true keyword s := by
  have hend : atWordEnd tail = true := by
    cases tail with
    | nil => rfl
    | cons c tail =>
      have hc := htail c rfl
      rw [beginsTail, Bool.or_eq_true, decide_eq_true_eq, decide_eq_true_eq] at hc
      rcases hc with rfl | rfl <;> rfl
  rw [FieldRule.fits, FieldRule.fits, after?_append_tail fun c hc => hkeyword c (htail c hc)]
  cases after? keyword.toList s with
  | none => rfl
  | some rest =>
    cases rest with
    | nil => simpa [atWordEnd] using hend
    | cons c rest => rfl

theorem applies_append {r : FieldRule} (hr : r ∈ fieldRules.tail) {s tail : List Char}
    (htail : ∀ c ∈ tail.head?, beginsTail c = true) : r.applies (s ++ tail) = r.applies s := by
  have hall : ∀ r ∈ fieldRules.tail, r.wholeWord = true ∧
      ∀ keyword ∈ r.keywords, '(' ∉ keyword.toList ∧ ' ' ∉ keyword.toList := by
    decide +kernel
  obtain ⟨hwhole, hkeywords⟩ := hall r hr
  rw [FieldRule.applies, FieldRule.applies, hwhole, Bool.eq_iff_iff, List.any_eq_true, List.any_eq_true]
  refine exists_congr fun keyword => and_congr_right fun hkeyword => ?_
  obtain ⟨hbracket, hspace⟩ := hkeywords keyword hkeyword
  rw [fits_append (fun c hc => ?_) htail]
  rw [beginsTail, Bool.or_eq_true, decide_eq_true_eq, decide_eq_true_eq] at hc
  rcases hc with rfl | rfl
  · exact hbracket
  · exact hspace

/-- The rule for truth values applies to one type alone. -/
theorem startsWith_tinyint_iff {keyword : List Char} (hkeyword : '(' ∉ keyword ∧ ' ' ∉ keyword)
    (hsize : Size size) (ms : List (List Char)) :
    startsWith "tinyint(1)".toList (keyword ++ (size ++ spaced ms)) = true ↔
      keyword ++ size = "tinyint(1)".toList := by
  constructor
  · intro h
    obtain ⟨rest, hrest⟩ := Text.startsWith_iff.1 h
    have hletters : ∀ c ∈ keyword, (!beginsTail c) = true := by
      intro c hc
      rw [beginsTail, Bool.not_eq_true', Bool.or_eq_false_iff, decide_eq_false_iff_not,
        decide_eq_false_iff_not]
      exact ⟨fun h => hkeyword.1 (h ▸ hc), fun h => hkeyword.2 (h ▸ hc)⟩
    -- both texts are cut where their keyword ends
    have hbegins : ∀ c ∈ (size ++ spaced ms).head?, (!beginsTail c) = false := fun c hc => by
      simp [hsize.beginsTail_head? ms c hc]
    obtain ⟨hfront, htail⟩ := takeWhile_dropWhile_append hletters hbegins
    rw [hrest] at hfront htail
    obtain rfl : "tinyint".toList = keyword := hfront
    have htail : '(' :: '1' :: ')' :: rest = size ++ spaced ms := htail
    have hone : ∀ {n l : List Char} {c : Char}, IsNumeral n → Text.isDigit c = false →
        '1' :: ')' :: rest = n ++ c :: l → n = ['1'] ∧ c = ')' := by
      intro n l c hn hc heq
      obtain ⟨htake, hdrop⟩ := hn.cut hc l
      rw [← heq] at htake hdrop
      exact ⟨htake.symm, (List.cons.inj hdrop).1.symm⟩
    cases hsize with
    | none => cases ms <;> cases htail
    | @width n hn =>
      obtain ⟨rfl, -⟩ := hone hn (c := ')') (l := spaced ms) (by decide) (by simpa using htail)
      rfl
    | @scaled n k hn hk =>
      obtain ⟨-, hmark⟩ := hone hn (c := ',') (l := k ++ ')' :: spaced ms) (by decide)
        (by simpa using htail)
      exact absurd hmark (by decide)
  · intro h
    rw [← List.append_assoc, h, Text.startsWith_append]

/-- No rule for whole words takes a type from the one that names its field type. -/
theorem fieldType_eq {k : BasicType} (hk : k ∈ basicTypes) {tail : List Char}
    (htail : ∀ c ∈ tail.head?, beginsTail c = true) :
    (match fieldRules.tail.find? (·.applies (k.keyword.toList ++ tail)) with
      | some rule => rule.fieldType
      | none => defaultFieldType) = k.fieldType := by
  have hall : ∀ k ∈ basicTypes, (match fieldRules.tail.find? (·.applies k.keyword.toList) with
      | some rule => rule.fieldType
      | none => defaultFieldType) = k.fieldType := by
    decide +kernel
  have hfind : fieldRules.tail.find? (·.applies (k.keyword.toList ++ tail)) =
      fieldRules.tail.find? (·.applies k.keyword.toList) :=
    List.find?_congr fun r hr => applies_append hr htail
  rw [hfind]
  exact hall k hk

/-! ### All types -/

theorem keyword_plain {k : BasicType} (hk : k ∈ basicTypes) : IsWord k.keyword.toList ∧
    ('(' ∉ k.keyword.toList ∧ ' ' ∉ k.keyword.toList) ∧ ' ' ∉ k.native.toList := by
  have hall : ∀ k ∈ basicTypes, (k.keyword.toList ≠ [] ∧ (∀ c ∈ k.keyword.toList, c.toNat < 0x80) ∧
      ∀ c ∈ k.keyword.toList, isBlank c = false) ∧
      ('(' ∉ k.keyword.toList ∧ ' ' ∉ k.keyword.toList) ∧ ' ' ∉ k.native.toList := by
    decide +kernel
  obtain ⟨⟨hne, hascii, hblank⟩, hrest⟩ := hall k hk
  exact ⟨⟨hne, hascii, hblank⟩, hrest⟩

/-- A type of the catalog is mapped as its keyword says, however it is spelled. The native type is the unsigned
one where the type is an integer, has no scale and is unsigned by its first modifier, and else the native name
with the size; the field type is that of the keyword, but for the one type of truth values. -/
theorem mapped_of_spelled {k : BasicType} (hk : k ∈ basicTypes) (hsize : Size size) {ms : List String}
    (hms : ∀ m ∈ ms, m ∈ modifiers) {t : String}
    (ht : Spelled (k.keyword.toList ++ size) (ms.map (·.toList)) t.toList) :
    nativeType? t = some (if k.isInteger ∧ ',' ∉ size ∧ ms.head? = some "unsigned" then
        "Unsigned" ++ k.native
      else k.native ++ String.ofList size) ∧
    baseFieldType t =
      if k.keyword.toList ++ size = "tinyint(1)".toList then "Boolean" else k.fieldType := by
  obtain ⟨hkeyword, hplain, hnative⟩ := keyword_plain hk
  have htail := hsize.beginsTail_head? (ms.map (·.toList))
  have hword : IsWord (k.keyword.toList ++ size) := by
    refine ⟨List.append_ne_nil_of_left_ne_nil hkeyword.ne_nil _, fun c hc => ?_,
      hkeyword.noBlank.append fun c hc => (hsize.ascii c hc).2⟩
    rcases List.mem_append.1 hc with hc | hc
    · exact hkeyword.ascii c hc
    · exact (hsize.ascii c hc).1
  have hrest : ∀ w ∈ ms.map (·.toList), IsWord w := by
    intro w hw
    obtain ⟨m, hm, rfl⟩ := List.mem_map.1 hw
    exact (of_mem_modifiers (hms m hm)).1
  have hnormal := normalise_of_spelled hword hrest ht
  rw [List.append_assoc] at hnormal
  refine ⟨?_, ?_⟩
  · have hspaced : ∀ l : List (List Char), ∀ c ∈ (spaced l).head?, decide (c ≠ ' ') = false := by
      intro l
      cases l <;> simp [spaced]
    have hcut : ∀ {s : List Char} (l : List (List Char)), ' ' ∉ s →
        (s ++ spaced l).takeWhile (· ≠ ' ') = s := by
      intro s l hs
      refine (takeWhile_dropWhile_append (fun c hc => ?_) (hspaced l)).1
      rw [decide_eq_true_eq]
      rintro rfl
      exact hs hc
    rw [nativeType?, hnormal, findSome?_rules hk htail, findSome?_replaced? hsize hms, Option.map_some]
    split
    · have hunsigned : ' ' ∉ ("Unsigned" ++ k.native).toList := by
        rw [String.toList_append, List.mem_append, not_or]
        exact ⟨by decide, hnative⟩
      rw [hcut _ hunsigned, String.ofList_toList]
    · have hsized : ' ' ∉ k.native.toList ++ size := by
        rw [List.mem_append, not_or]
        exact ⟨hnative, fun h => absurd (hsize.ascii _ h).2 (by decide)⟩
      rw [← List.append_assoc, hcut _ hsized, String.ofList_append, String.ofList_toList]
  · have hrules : fieldRules = ⟨["tinyint(1)"], false, "Boolean"⟩ :: fieldRules.tail := rfl
    have hfirst : FieldRule.applies ⟨["tinyint(1)"], false, "Boolean"⟩
        (k.keyword.toList ++ (size ++ spaced (ms.map (·.toList)))) =
        startsWith "tinyint(1)".toList (k.keyword.toList ++ (size ++ spaced (ms.map (·.toList)))) := by
      rw [FieldRule.applies, List.any_cons, List.any_nil, Bool.or_false, FieldRule.fits, startsWith]
      cases after? "tinyint(1)".toList _ <;> rfl
    have hiff := startsWith_tinyint_iff hplain hsize (ms.map (·.toList))
    rw [baseFieldType, hnormal, hrules, List.find?_cons, hfirst]
    by_cases h : k.keyword.toList ++ size = "tinyint(1)".toList
    · rw [if_pos h, hiff.2 h]
    · rw [if_neg h, Bool.eq_false_iff.2 (mt hiff.1 h)]
      exact fieldType_eq hk htail

/-- An unsigned integer with a width, in several letter cases and with several kinds of white space. -/
def smallCounter : String := " TinyInt(04)\u00a0 UNSIGNED\tzeroFill\n"

theorem mapped_of_spelled_smallCounter :
    Spelled "tinyint(04)".toList ["unsigned".toList, "zerofill".toList] smallCounter.toList ∧
      Size "(04)".toList ∧ nativeType? smallCounter = some "UnsignedTinyInt" ∧
      baseFieldType smallCounter = "Int" := by
  have hspelled : Spelled "tinyint(04)".toList ["unsigned".toList, "zerofill".toList]
      smallCounter.toList :=
    ⟨[' '], "TinyInt(04)".toList, _, rfl, by decide, by decide,
      @SpelledAfter.cons ['\u00a0', ' '] "UNSIGNED".toList _ _ _ (by decide) (by decide) (by decide)
        (@SpelledAfter.cons ['\t'] "zeroFill".toList _ _ _ (by decide) (by decide) (by decide)
          (@SpelledAfter.nil ['\n'] (by decide)))⟩
  have hsize : Size "(04)".toList := .width (n := ['0', '4']) ⟨by decide, by decide⟩
  have hmodifiers : ∀ m ∈ ["unsigned", "zerofill"], m ∈ modifiers := by decide
  obtain ⟨hnative, hfield⟩ := mapped_of_spelled
    (k := ⟨"tinyint", "TinyInt", "Int", true⟩) (by simp [basicTypes]) hsize hmodifiers hspelled
  exact ⟨hspelled, hsize, hnative, hfield⟩

end CatalogSync.TypeRule
