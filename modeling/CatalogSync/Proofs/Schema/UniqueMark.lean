import CatalogSync.Proofs.Text.Marks
import CatalogSync.Proofs.Text.Lines
import CatalogSync.Schema.FieldText
import CatalogSync.Schema.Render

/-!
The mark for unique values in a field line. It is found wherever it stands without a further sign in
front, so a text keeps it out of the way exactly where it is not `marked`. A mark that was written
is taken out with its name, provided that nothing in front of it is marked.
-/

namespace CatalogSync.UniqueFlag

open Text (after? startsWith isBlank)

/-- The mark for unique values without its argument. -/
def sign : List Char := "@unique".toList

/-- The text holds the mark for unique values without a further sign in front of it. `afterSign`
says that such a sign stands in front of the text. -/
def marked (afterSign : Bool) : List Char → Bool
  | [] => false
  | c :: rest => (!afterSign && startsWith sign (c :: rest)) || marked (c = '@') rest

theorem marked_cons (afterSign : Bool) (c : Char) (s : List Char) : marked afterSign (c :: s) =
    ((!afterSign && startsWith sign (c :: s)) || marked (c = '@') s) := rfl

theorem marked_iff {afterSign : Bool} {s : List Char} : marked afterSign s = true ↔
    ∃ x y, s = x ++ sign ++ y ∧ if x = [] then afterSign = false else x.getLast? ≠ some '@' := by
  induction s generalizing afterSign with
  | nil =>
    have hsign : sign ≠ [] := by decide
    simp [marked, hsign]
  | cons c s ih =>
    rw [marked_cons, Bool.or_eq_true, Bool.and_eq_true, ih, Text.startsWith_iff]
    constructor
    · rintro (⟨ha, y, hy⟩ | ⟨x, y, rfl, hx⟩)
      · exact ⟨[], y, hy, by simpa using ha⟩
      · refine ⟨c :: x, y, rfl, ?_⟩
        rw [if_neg (by simp)]
        by_cases h : x = []
        · rw [if_pos h] at hx
          simpa [h] using hx
        · obtain ⟨d, x, rfl⟩ := List.exists_cons_of_ne_nil h
          simpa [List.getLast?_cons_cons] using hx
    · rintro ⟨x, y, hs, hx⟩
      cases x with
      | nil => exact Or.inl ⟨by simpa using hx, y, hs⟩
      | cons d x =>
        obtain ⟨rfl, hs'⟩ := List.cons.inj hs
        refine Or.inr ⟨x, y, hs', ?_⟩
        rw [if_neg (by simp)] at hx
        split
        next h => simpa [h] using hx
        next h =>
          obtain ⟨d, x, rfl⟩ := List.exists_cons_of_ne_nil h
          simpa [List.getLast?_cons_cons] using hx

theorem marked_of_not_mem {s : List Char} (h : '@' ∉ s) (afterSign : Bool) :
    marked afterSign s = false := by
  cases hm : marked afterSign s with
  | false => rfl
  | true =>
    obtain ⟨x, y, rfl, -⟩ := marked_iff.1 hm
    have hsign : '@' ∈ sign := by decide
    exact absurd (by simp [hsign]) h

/-- A character that is no part of the mark parts a text into two that are marked on their own. -/
theorem marked_append_cons {c : Char} (hc : c ∉ sign) (afterSign : Bool) (s t : List Char) :
    marked afterSign (s ++ c :: t) = (marked afterSign s || marked false t) := by
  have hsign : c ≠ '@' := fun h => hc (by rw [h]; decide)
  induction s generalizing afterSign with
  | nil =>
    have hstart := Text.startsWith_append_cons hc [] t
    rw [List.nil_append] at hstart
    have hempty : startsWith sign [] = false := rfl
    rw [List.nil_append, marked_cons, hstart, hempty]
    simp [marked, hsign]
  | cons d s ih =>
    have hstart := Text.startsWith_append_cons hc (d :: s) t
    rw [List.cons_append] at hstart
    rw [List.cons_append, marked_cons, marked_cons, hstart, ih, Bool.or_assoc]

/-! ### Taking the mark out -/

theorem extractFrom_of_marked_eq_false {afterSign : Bool} {s : List Char}
    (h : marked afterSign s = false) : extractFrom afterSign s = (s, none) := by
  induction s generalizing afterSign with
  | nil => rfl
  | cons c s ih =>
    rw [marked_cons, Bool.or_eq_false_iff] at h
    have hnone : (if afterSign then none else after? "@unique".toList (c :: s)) = none := by
      cases afterSign with
      | true => rfl
      | false =>
        have hstart : startsWith sign (c :: s) = false := by simpa using h.1
        exact Text.after?_eq_none_iff.2 hstart
    rw [extractFrom, hnone]
    simp only [ih h.2]

/-- A flag is found where the text is marked, and only there. -/
theorem isSome_extractFrom (afterSign : Bool) (s : List Char) :
    (extractFrom afterSign s).2.isSome = marked afterSign s := by
  induction s generalizing afterSign with
  | nil => rfl
  | cons c s ih =>
    rw [extractFrom, marked]
    split
    next rest hfound =>
      have ha : afterSign = false := by
        cases afterSign <;> simp at hfound ⊢
      rw [ha] at hfound ⊢
      have hstart : startsWith sign (c :: s) = true := by
        have hafter : after? sign (c :: s) = some rest := hfound
        rw [startsWith, hafter]
        rfl
      rw [hstart]
      split <;> rfl
    next hnone =>
      have hstart : (!afterSign && startsWith sign (c :: s)) = false := by
        cases afterSign with
        | true => rfl
        | false => exact Text.after?_eq_none_iff.1 hnone
      rw [hstart, Bool.false_or, ← ih]

/-- What stands in front of a mark and is not marked itself is kept. -/
theorem extractFrom_append_cons {c : Char} (hc : c ∉ sign) {afterSign : Bool} {s : List Char}
    (h : marked afterSign s = false) (t : List Char) :
    extractFrom afterSign (s ++ c :: t) =
      (s ++ c :: (extractFrom false t).1, (extractFrom false t).2) := by
  have hsign : c ≠ '@' := fun h => hc (by rw [h]; decide)
  induction s generalizing afterSign with
  | nil =>
    have hnone : (if afterSign then none else after? "@unique".toList (c :: t)) = none := by
      cases afterSign with
      | true => rfl
      | false => exact Text.after?_eq_none_iff.2 (Text.startsWith_append_cons hc [] t)
    rw [List.nil_append, extractFrom, hnone]
    simp [hsign]
  | cons d s ih =>
    rw [marked_cons, Bool.or_eq_false_iff] at h
    have hnone : (if afterSign then none else after? "@unique".toList (d :: (s ++ c :: t))) =
        none := by
      cases afterSign with
      | true => rfl
      | false =>
        have hstart : startsWith sign (d :: s) = false := by simpa using h.1
        exact Text.after?_eq_none_iff.2
          ((Text.startsWith_append_cons hc (d :: s) t).trans hstart)
    rw [List.cons_append, extractFrom, hnone]
    simp only [ih h.2]
    rfl

theorem argument?_of_head? {s : List Char} (h : s.head? ≠ some '(') : argument? s = none := by
  cases s with
  | nil => rfl
  | cons c s =>
    have hc : '(' ≠ c := fun hc => h (by rw [hc]; rfl)
    simp [argument?, after?, hc]

theorem argument?_written {name : List Char} (h : '"' ∉ name) (t : List Char) :
    argument? ("(map: \"".toList ++ name ++ "\")".toList ++ t) = some (String.ofList name, t) := by
  have hcut : Text.cutAt? '"' (name ++ '"' :: ')' :: t) = some (name, ')' :: t) :=
    Text.cutAt?_append h _
  have htext : "(map: \"".toList ++ name ++ "\")".toList ++ t =
      "(map: \"".toList ++ (name ++ '"' :: ')' :: t) := by
    simp
  -- up to the opening quote the argument is fixed text
  have hread : argument? ("(map: \"".toList ++ (name ++ '"' :: ')' :: t)) =
      (Text.cutAt? '"' (name ++ '"' :: ')' :: t)).bind fun cut =>
        (after? [')'] (cut.2.dropWhile isBlank)).bind fun rest => some (String.ofList cut.1, rest) := rfl
  rw [htext, hread, hcut]
  rfl

/-- A written mark at the start of a text is taken out with its name. -/
theorem extractFrom_render (u : UniqueFlag) (hname : ∀ name ∈ u.mapName, '"' ∉ name.toList)
    {t : List Char} (ht : t.head? ≠ some '(') :
    extractFrom false (u.render ++ t) = (t, some u) := by
  obtain ⟨mapName⟩ := u
  cases mapName with
  | none =>
    have hfound : after? "@unique".toList ("@unique".toList ++ t) = some t :=
      Text.after?_append _ _
    simp only [render]
    rw [show "@unique".toList ++ t = '@' :: ("unique".toList ++ t) from rfl] at hfound ⊢
    rw [extractFrom]
    simp only [Bool.false_eq_true, if_false, hfound, argument?_of_head? ht]
  | some name =>
    have hquote := hname name rfl
    have hfound : after? "@unique".toList (render ⟨some name⟩ ++ t) =
        some ("(map: \"".toList ++ name.toList ++ "\")".toList ++ t) := by
      rw [← Text.after?_append "@unique".toList]
      simp [render]
    have hcons : render ⟨some name⟩ ++ t =
        '@' :: ("unique(map: \"".toList ++ name.toList ++ "\")".toList ++ t) := by
      simp [render]
    rw [hcons] at hfound ⊢
    rw [extractFrom]
    simp only [Bool.false_eq_true, if_false, hfound, argument?_written hquote,
      String.ofList_toList]

/-- Behind a text that is not marked, a written mark is taken out with its name. -/
theorem extract_append_render {s t : List Char} (u : UniqueFlag) (hs : marked false s = false)
    (hname : ∀ name ∈ u.mapName, '"' ∉ name.toList) (ht : t.head? ≠ some '(') :
    extract (s ++ ' ' :: (u.render ++ t)) = (s ++ ' ' :: t, some u) := by
  rw [extract, extractFrom_append_cons (by decide) hs, extractFrom_render u hname ht]

/-! ### What was taken out -/

/-- The text is a mark that is read as the flag: the sign alone, or the sign with an argument, white
space between its parts. -/
def Spells (u : UniqueFlag) (s : List Char) : Prop :=
  match u.mapName with
  | none => s = sign
  | some name => '"' ∉ name.toList ∧ ∃ a b c, (∀ d ∈ a ++ b ++ c, isBlank d = true) ∧
      s = sign ++ '(' :: (a ++ ("map:".toList ++ (b ++ '"' :: (name.toList ++ '"' :: (c ++ [')'])))))

theorem spells_of_argument? {s after : List Char} {name : String}
    (h : argument? s = some (name, after)) :
    ∃ argument, s = argument ++ after ∧ Spells ⟨some name⟩ (sign ++ argument) := by
  simp only [argument?, Option.bind_eq_bind, Option.bind_eq_some_iff] at h
  obtain ⟨x, hx, y, hy, z, hz, ⟨before, rest⟩, hcut, w, hw, hpair⟩ := h
  obtain ⟨rfl, rfl⟩ : String.ofList before = name ∧ w = after := by simpa using hpair
  obtain ⟨hsplit, hquote⟩ := Text.cutAt?_eq_some hcut
  have hblank : ∀ t : List Char, ∀ d ∈ t.takeWhile isBlank, isBlank d = true :=
    fun t d hd => List.all_eq_true.1 List.all_takeWhile d hd
  have hdrop : ∀ {t mark rest : List Char}, after? mark (t.dropWhile isBlank) = some rest →
      t = t.takeWhile isBlank ++ (mark ++ rest) := by
    intro t mark rest hrest
    rw [← Text.after?_eq_some_iff.1 hrest, List.takeWhile_append_dropWhile]
  refine ⟨'(' :: (x.takeWhile isBlank ++ ("map:".toList ++ (y.takeWhile isBlank ++ '"' ::
    (before ++ '"' :: (rest.takeWhile isBlank ++ [')']))))), ?_, ?_, x.takeWhile isBlank,
    y.takeWhile isBlank, rest.takeWhile isBlank, fun d hd => ?_, ?_⟩
  · have hrest : rest = rest.takeWhile isBlank ++ ([')'] ++ w) := hdrop hw
    have hx' : x = x.takeWhile isBlank ++ ("map:".toList ++ y) := hdrop hy
    have hy' : y = y.takeWhile isBlank ++ (['"'] ++ z) := hdrop hz
    calc s = '(' :: x := Text.after?_eq_some_iff.1 hx
      _ = '(' :: (x.takeWhile isBlank ++ ("map:".toList ++ (y.takeWhile isBlank ++ (['"']
          ++ (before ++ '"' :: (rest.takeWhile isBlank ++ ([')'] ++ w))))))) := by
        rw [← hrest, ← hsplit, ← hy', ← hx']
      _ = _ := by simp
  · simpa using hquote
  · rcases List.mem_append.1 hd with hd | hd
    · rcases List.mem_append.1 hd with hd | hd
      · exact hblank x d hd
      · exact hblank y d hd
    · exact hblank rest d hd
  · rw [String.toList_ofList (l := before)]

/-- What is read as a flag is a stretch of the line, and all else is kept. -/
theorem exists_of_extractFrom {afterSign : Bool} {s rest : List Char} {u : UniqueFlag}
    (h : extractFrom afterSign s = (rest, some u)) :
    ∃ pre mark after, s = pre ++ mark ++ after ∧ rest = pre ++ after ∧ Spells u mark := by
  induction s generalizing afterSign rest with
  | nil => cases h
  | cons c s ih =>
    rw [extractFrom] at h
    split at h
    next after hafter =>
      have hsign : c :: s = sign ++ after := by
        cases afterSign with
        | true => cases hafter
        | false => exact Text.after?_eq_some_iff.1 hafter
      split at h
      next name tail hargument =>
        obtain ⟨rfl, rfl⟩ : tail = rest ∧ (⟨some name⟩ : UniqueFlag) = u := by simpa using h
        obtain ⟨argument, hsplit, hspells⟩ := spells_of_argument? hargument
        exact ⟨[], sign ++ argument, tail, by rw [hsign, hsplit]; simp, rfl, hspells⟩
      next =>
        obtain ⟨rfl, rfl⟩ : after = rest ∧ (⟨none⟩ : UniqueFlag) = u := by simpa using h
        exact ⟨[], sign, after, by rw [hsign]; rfl, rfl, rfl⟩
    next =>
      obtain ⟨hrest, hflag⟩ := Prod.mk.inj h
      obtain ⟨pre, mark, after, hs, hkept, hspells⟩ := ih (Prod.ext rfl hflag)
      refine ⟨c :: pre, mark, after, by rw [hs]; rfl, ?_, hspells⟩
      exact hrest.symm.trans (congrArg (c :: ·) hkept)

theorem eq_of_extractFrom_none {afterSign : Bool} {s rest : List Char}
    (h : extractFrom afterSign s = (rest, none)) : rest = s := by
  have hmarked : marked afterSign s = false := by
    rw [← isSome_extractFrom, h]
    rfl
  rw [extractFrom_of_marked_eq_false hmarked] at h
  exact (Prod.mk.inj h).1.symm

/-- The name of a flag is a stretch of its mark. -/
theorem Spells.isInfix {u : UniqueFlag} {mark : List Char} (h : Spells u mark) {name : String}
    (hname : u.mapName = some name) : '"' ∉ name.toList ∧ name.toList <:+: mark := by
  rw [Spells, hname] at h
  obtain ⟨hquote, a, b, c, -, rfl⟩ := h
  refine ⟨hquote, sign ++ '(' :: (a ++ ("map:".toList ++ (b ++ ['"']))), '"' :: (c ++ [')']), ?_⟩
  simp

end CatalogSync.UniqueFlag
