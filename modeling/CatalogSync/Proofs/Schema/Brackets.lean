import CatalogSync.Proofs.Text.Words
import CatalogSync.Schema.FieldText

/-!
Attributes of several words. Words are joined to one attribute from an opening bracket to the first
place between words where all brackets are closed, so a text with brackets is read as one attribute
exactly where none of its spaces is such a place and its end is one.
-/

namespace CatalogSync

open Text (isBlank cutWhere joined words NoBlank SingleSpaced)

theorem isOpener_iff {c : Char} : isOpener c = true ↔ c = '(' ∨ c = '[' ∨ c = '{' := by
  simp only [isOpener, Bracket.all, List.any_cons, List.any_nil, Bool.or_eq_true, decide_eq_true_eq,
    Bool.false_eq_true, or_false]
  simp only [Bracket.opener]
  constructor <;> rintro (rfl | rfl | rfl) <;> simp

theorem isCloser_iff {c : Char} : isCloser c = true ↔ c = ')' ∨ c = ']' ∨ c = '}' := by
  simp only [isCloser, Bracket.all, List.any_cons, List.any_nil, Bool.or_eq_true, decide_eq_true_eq,
    Bool.false_eq_true, or_false]
  simp only [Bracket.closer]
  constructor <;> rintro (rfl | rfl | rfl) <;> simp

/-- No character of the text opens or closes anything. -/
def NoBracket (s : List Char) : Prop := ∀ c ∈ s, isOpener c = false ∧ isCloser c = false

instance (s : List Char) : Decidable (NoBracket s) :=
  inferInstanceAs (Decidable (∀ c ∈ s, isOpener c = false ∧ isCloser c = false))

theorem NoBracket.append {s t : List Char} (hs : NoBracket s) (ht : NoBracket t) :
    NoBracket (s ++ t) := by
  intro c hc
  rcases List.mem_append.1 hc with hc | hc
  · exact hs c hc
  · exact ht c hc

namespace Balance

@[simp] theorem add_nil (b : Balance) : b.add [] = b := rfl

@[simp] theorem add_cons (b : Balance) (c : Char) (s : List Char) :
    b.add (c :: s) = (b.addChar c).add s := rfl

theorem isEven_iff {b : Balance} : b.isEven = true ↔ b = {} := by
  obtain ⟨round, square, curly⟩ := b
  simp [isEven, and_assoc]

/-- What a character adds does not depend on what is open. -/
theorem addChar_eq (b : Balance) (c : Char) :
    b.addChar c = ⟨b.round + (addChar {} c).round, b.square + (addChar {} c).square,
      b.curly + (addChar {} c).curly⟩ := by
  unfold addChar
  split <;> simp <;> omega

/-- What a text adds does not depend on what is open. -/
theorem add_eq (b : Balance) (s : List Char) :
    b.add s = ⟨b.round + (add {} s).round, b.square + (add {} s).square,
      b.curly + (add {} s).curly⟩ := by
  induction s generalizing b with
  | nil => simp
  | cons c s ih =>
    rw [add_cons, add_cons, ih (b.addChar c), ih (addChar {} c), addChar_eq b c]
    simp only [mk.injEq]
    omega

theorem addChar_of_noBracket (b : Balance) {c : Char}
    (h : isOpener c = false ∧ isCloser c = false) : b.addChar c = b := by
  have ho : ¬(c = '(' ∨ c = '[' ∨ c = '{') := fun hc => by simp [isOpener_iff.2 hc] at h
  have hc : ¬(c = ')' ∨ c = ']' ∨ c = '}') := fun hc => by simp [isCloser_iff.2 hc] at h
  simp only [not_or] at ho hc
  unfold addChar
  split <;> simp_all

theorem add_of_noBracket (b : Balance) {s : List Char} (h : NoBracket s) : b.add s = b := by
  induction s generalizing b with
  | nil => rfl
  | cons c s ih =>
    rw [add_cons, addChar_of_noBracket b (h c List.mem_cons_self),
      ih _ fun d hd => h d (List.mem_cons_of_mem _ hd)]

/-- How many brackets of a kind are open. -/
def level (b : Balance) : Bracket → Int
  | .round => b.round
  | .square => b.square
  | .curly => b.curly

theorem level_addChar (b : Balance) (c : Char) (k : Bracket) : (b.addChar c).level k =
    b.level k + (if c = k.opener then 1 else 0) - if c = k.closer then 1 else 0 := by
  unfold addChar
  split <;> cases k <;> simp_all [level, Bracket.opener, Bracket.closer]

theorem level_add (b : Balance) (s : List Char) (k : Bracket) :
    (b.add s).level k = b.level k + s.count k.opener - s.count k.closer := by
  induction s generalizing b with
  | nil => simp
  | cons c s ih =>
    rw [add_cons, ih, level_addChar, List.count_cons, List.count_cons]
    simp only [beq_iff_eq]
    split <;> split <;> omega

/-- A text evens out where it holds as many opening brackets of each kind as closing ones. -/
theorem isEven_add_iff {s : List Char} :
    (add {} s).isEven = true ↔ ∀ k : Bracket, s.count k.opener = s.count k.closer := by
  have hempty : ∀ k, level {} k = 0 := by
    intro k
    cases k <;> rfl
  have hlevel := fun k => level_add {} s k
  simp only [hempty, Int.zero_add] at hlevel
  constructor
  · intro heven k
    have hk := hlevel k
    rw [isEven_iff.1 heven, hempty] at hk
    omega
  · intro hcount
    have hzero : ∀ k, (add {} s).level k = 0 := fun k => by
      rw [hlevel, hcount]
      omega
    have hround : (add {} s).round = 0 := hzero .round
    have hsquare : (add {} s).square = 0 := hzero .square
    have hcurly : (add {} s).curly = 0 := hzero .curly
    simp [isEven, hround, hsquare, hcurly]

/-- The text closes as many brackets of each kind as it opens. -/
def Neutral (s : List Char) : Prop := ∀ b, add b s = b

theorem neutral_of_noBracket {s : List Char} (h : NoBracket s) : Neutral s :=
  fun b => add_of_noBracket b h

theorem Neutral.append {s t : List Char} (hs : Neutral s) (ht : Neutral t) : Neutral (s ++ t) := by
  intro b
  rw [add_append, hs b, ht b]

theorem neutral_joined {separator : List Char} (hsep : Neutral separator)
    {pieces : List (List Char)} (h : ∀ p ∈ pieces, Neutral p) :
    Neutral (joined separator pieces) := by
  induction pieces with
  | nil => exact fun b => rfl
  | cons piece pieces ih =>
    have hpiece := h piece List.mem_cons_self
    cases pieces with
    | nil => exact hpiece
    | cons next pieces =>
      exact (hpiece.append hsep).append (ih fun p hp => h p (List.mem_cons_of_mem _ hp))

/-- A text without round brackets leaves the number of open ones as it is. -/
theorem round_add {s : List Char} (h : '(' ∉ s ∧ ')' ∉ s) (b : Balance) :
    (b.add s).round = b.round := by
  have hlevel := level_add b s .round
  simpa [level, Bracket.opener, Bracket.closer, List.count_eq_zero.2 h.1, List.count_eq_zero.2 h.2]
    using hlevel

/-- The brackets of the text, after those that are open already, close together for the first time
at its end, seen from the spaces in it. -/
def ClosesAtEnd (b : Balance) (s : List Char) : Prop :=
  (∀ x y, s = x ++ ' ' :: y → (b.add x).isEven = false) ∧ (b.add s).isEven = true

theorem closesAtEnd_space {b : Balance} {s : List Char} :
    ClosesAtEnd b (' ' :: s) ↔ b.isEven = false ∧ ClosesAtEnd b s := by
  constructor
  · rintro ⟨hinner, hend⟩
    exact ⟨hinner [] s rfl, fun x y hxy => hinner (' ' :: x) y (by rw [hxy]; rfl), hend⟩
  · rintro ⟨hb, hinner, hend⟩
    refine ⟨fun x y hxy => ?_, hend⟩
    cases x with
    | nil => exact hb
    | cons d x =>
      obtain ⟨rfl, hs⟩ := List.cons.inj hxy
      exact hinner x y hs

theorem closesAtEnd_cons {b : Balance} {c : Char} (hc : c ≠ ' ') {s : List Char} :
    ClosesAtEnd b (c :: s) ↔ ClosesAtEnd (b.addChar c) s := by
  constructor
  · rintro ⟨hinner, hend⟩
    exact ⟨fun x y hxy => hinner (c :: x) y (by rw [hxy]; rfl), hend⟩
  · rintro ⟨hinner, hend⟩
    refine ⟨fun x y hxy => ?_, hend⟩
    cases x with
    | nil => exact absurd (List.cons.inj hxy).1 hc
    | cons d x =>
      obtain ⟨rfl, hs⟩ := List.cons.inj hxy
      exact hinner x y hs

theorem closesAtEnd_append {b : Balance} {pre : List Char} (hpre : ' ' ∉ pre) {s : List Char} :
    ClosesAtEnd b (pre ++ s) ↔ ClosesAtEnd (b.add pre) s := by
  induction pre generalizing b with
  | nil => exact Iff.rfl
  | cons c pre ih =>
    obtain ⟨hc, hpre⟩ : ' ' ≠ c ∧ ' ' ∉ pre := by simpa using hpre
    rw [List.cons_append, closesAtEnd_cons hc.symm, ih hpre]
    rfl

/-- A text in parentheses closes at its end where its own brackets even out and it does not close
the first parenthesis, with all others, in front of one of its spaces. -/
theorem closesAtEnd_parenthesised {pre e : List Char} (hpre : ' ' ∉ pre)
    (hround : add {} pre = ⟨1, 0, 0⟩) : ClosesAtEnd {} (pre ++ e ++ [')']) ↔
      (∀ x y, e = x ++ ' ' :: y → (add ⟨1, 0, 0⟩ x).isEven = false) ∧
        (add {} e).isEven = true := by
  rw [List.append_assoc, closesAtEnd_append hpre, hround]
  have hend : (add ⟨1, 0, 0⟩ (e ++ [')'])).isEven = (add {} e).isEven := by
    have hround : 1 + (add {} e).round - 1 = 0 ↔ (add {} e).round = 0 := by omega
    rw [add_append, add_eq ⟨1, 0, 0⟩ e]
    simp only [add_cons, add_nil, addChar, isEven, Int.zero_add, hround]
  rw [ClosesAtEnd, hend]
  refine and_congr ⟨fun h x y hxy => h x (y ++ [')']) (by rw [hxy]; simp), fun h x y hxy => ?_⟩
    Iff.rfl
  rcases List.append_eq_append_iff.1 hxy with ⟨a, rfl, hy⟩ | ⟨a, hx, hy⟩
  · cases a with
    | nil => exact absurd (List.cons.inj hy).1 (by decide)
    | cons d a => exact absurd (congrArg List.length hy) (by simp)
  · cases a with
    | nil => exact absurd (List.cons.inj hy).1 (by decide)
    | cons d a =>
      obtain ⟨rfl, -⟩ := List.cons.inj hy
      exact h x a hx

/-- The brackets of the words close together for the first time behind the last one. -/
def ClosesAfter (b : Balance) : List (List Char) → Prop
  | [] => False
  | [word] => (b.add word).isEven = true
  | word :: rest => (b.add word).isEven = false ∧ ClosesAfter (b.add word) rest

theorem closesAfter_cons {b : Balance} {word : List Char} {rest : List (List Char)}
    (h : rest ≠ []) : ClosesAfter b (word :: rest) ↔
      (b.add word).isEven = false ∧ ClosesAfter (b.add word) rest := by
  cases rest with
  | nil => exact absurd rfl h
  | cons next rest => exact Iff.rfl

/-- Cut at its spaces, a text closes behind its last piece where it closes at its end. -/
theorem closesAfter_cutWhere_iff {s : List Char} (hs : ∀ c ∈ s, isBlank c = true → c = ' ')
    (b : Balance) : ClosesAfter b (cutWhere isBlank s) ↔ ClosesAtEnd b s := by
  induction s generalizing b with
  | nil => simp [cutWhere, ClosesAfter, ClosesAtEnd]
  | cons c s ih =>
    have ih := ih fun d hd => hs d (List.mem_cons_of_mem _ hd)
    rw [cutWhere]
    cases hc : isBlank c with
    | true =>
      obtain rfl : c = ' ' := hs c List.mem_cons_self hc
      rw [if_pos rfl, closesAfter_cons (Text.cutWhere_ne_nil isBlank s), ih, closesAtEnd_space]
      rfl
    | false =>
      have hsp : c ≠ ' ' := by
        rintro rfl
        cases hc
      obtain ⟨first, others, hcut⟩ := List.exists_cons_of_ne_nil (Text.cutWhere_ne_nil isBlank s)
      have hfirst : ClosesAfter b ((c :: first) :: others) ↔
          ClosesAfter (b.addChar c) (first :: others) := by
        cases others <;> exact Iff.rfl
      rw [if_neg (by simp), hcut, hfirst, ← hcut, ih, closesAtEnd_cons hsp]

end Balance

namespace Attribute

/-- The words of an attribute, a space apart. -/
def text : Attribute → List Char
  | .bare word => word
  | .bracketed text => text

end Attribute

namespace Attributes

@[simp] theorem push_closed (a : Attribute) (as : Attributes) :
    (as.push a).closed = a :: as.closed := rfl

@[simp] theorem push_isOpen (a : Attribute) (as : Attributes) :
    (as.push a).isOpen = as.isOpen := rfl

/-- Words whose brackets close behind the last one are joined to one attribute, and reading goes on
behind them as at the start. -/
theorem collect_append {pending ws : List (List Char)} {b : Balance} (h : b.ClosesAfter ws)
    (hopen : pending ≠ [] ∨ ∀ w ∈ ws.head?, w.any isOpener = true) (rest : List (List Char)) :
    collect pending b (ws ++ rest) =
      (collect [] {} rest).push (.bracketed (joined [' '] (pending.reverse ++ ws))) := by
  induction ws generalizing pending b with
  | nil => exact h.elim
  | cons w ws ih =>
    have hjoin : ¬(pending.isEmpty = true ∧ (!w.any isOpener) = true) := by
      rintro ⟨hp, hw⟩
      rcases hopen with hopen | hopen
      · exact hopen (by simpa using hp)
      · rw [hopen w rfl] at hw
        cases hw
    rw [List.cons_append, collect, if_neg hjoin]
    cases ws with
    | nil =>
      have hend : (b.add w).isEven = true := h
      simp only [hend, if_true, List.reverse_cons, List.nil_append]
      rw [Balance.isEven_iff.1 hend]
    | cons next ws =>
      obtain ⟨hgo, hrest⟩ := h
      simp only [hgo, Bool.false_eq_true, if_false]
      rw [ih hrest (Or.inl (by simp))]
      simp

/-- The text is read as this one attribute, whatever words follow. -/
def Stands (s : List Char) (a : Attribute) : Prop :=
  ∀ rest, collect [] {} (words s ++ rest) = (collect [] {} rest).push a

theorem head?_cutWhere (s : List Char) :
    (cutWhere isBlank s).head? = some (s.takeWhile fun c => !isBlank c) := by
  induction s with
  | nil => rfl
  | cons c s ih =>
    rw [cutWhere]
    cases hc : isBlank c with
    | true => simp [hc]
    | false =>
      obtain ⟨first, others, hcut⟩ := List.exists_cons_of_ne_nil (Text.cutWhere_ne_nil isBlank s)
      rw [hcut] at ih ⊢
      simpa [hc] using ih

/-- What stands in front of the first white space belongs to the first word. -/
theorem exists_words_eq_cons {pre : List Char} (hpre : NoBlank pre) (hne : pre ≠ [])
    (s : List Char) : ∃ w ws, words (pre ++ s) = w :: ws ∧ pre <+: w := by
  obtain ⟨first, others, hcut⟩ :=
    List.exists_cons_of_ne_nil (Text.cutWhere_ne_nil isBlank (pre ++ s))
  have hfirst : first = pre ++ s.takeWhile fun c => !isBlank c := by
    have := head?_cutWhere (pre ++ s)
    rw [hcut, List.head?_cons, Option.some.injEq] at this
    rw [this, List.takeWhile_append_of_pos fun c hc => by rw [hpre c hc]; rfl]
  have hfull : (!first.isEmpty) = true := by
    rw [hfirst]
    cases pre with
    | nil => exact absurd rfl hne
    | cons c pre => rfl
  refine ⟨first, others.filter (!·.isEmpty), ?_, ?_⟩
  · rw [words, hcut]
    exact List.filter_cons_of_pos hfull
  · rw [hfirst]
    exact List.prefix_append _ _

/-- A single-spaced text with an opening bracket in its first word is one attribute where its
brackets close at its end. -/
theorem stands_bracketed {s : List Char} (hs : SingleSpaced s) (hfirst : s.head? ≠ some ' ')
    (hlast : s.getLast? ≠ some ' ') (hopen : (s.takeWhile fun c => !isBlank c).any isOpener = true)
    (hends : Balance.ClosesAtEnd {} s) : Stands s (.bracketed s) := by
  intro rest
  have hne : s ≠ [] := by
    rintro rfl
    simp at hopen
  have hcloses := (Balance.closesAfter_cutWhere_iff hs.1 {}).2 hends
  rw [Text.words_eq_cutWhere hs hne hfirst hlast,
    collect_append hcloses (Or.inr fun w hw => ?_) rest]
  · simp [Text.joined_cutWhere hs.1]
  · rw [head?_cutWhere] at hw
    obtain rfl := Option.some.inj hw
    exact hopen

/-- A word without opening brackets is an attribute of its own. -/
theorem stands_bare {s : List Char} (hne : s ≠ []) (hs : NoBlank s)
    (hopen : s.any isOpener = false) : Stands s (.bare s) := by
  intro rest
  rw [Text.words_of_noBlank hne hs, List.cons_append, collect, if_pos (by simp [hopen])]
  rfl

/-- Texts that are read as one attribute each are read as these attributes when they stand in a
row. -/
theorem ofWords_flatMap {texts : List (List Char)} {as : List Attribute}
    (h : List.Forall₂ Stands texts as) : ofWords (texts.flatMap words) = ⟨as, false⟩ := by
  rw [ofWords]
  induction h with
  | nil => rfl
  | cons hs _ ih => rw [List.flatMap_cons, hs, ih, push]

/-! ### Nothing is lost -/

/-- Pieces with a space in front of each. -/
def spaced (pieces : List (List Char)) : List Char := pieces.flatMap fun p => ' ' :: p

theorem spaced_append (l r : List (List Char)) : spaced (l ++ r) = spaced l ++ spaced r :=
  List.flatMap_append

theorem spaced_cons (piece : List Char) (rest : List (List Char)) :
    spaced (piece :: rest) = ' ' :: piece ++ spaced rest := rfl

theorem cons_joined {pieces : List (List Char)} (h : pieces ≠ []) :
    ' ' :: joined [' '] pieces = spaced pieces := by
  induction pieces with
  | nil => exact absurd rfl h
  | cons piece pieces ih =>
    cases pieces with
    | nil => simp [spaced, joined]
    | cons next pieces =>
      have := ih (by simp)
      rw [spaced_cons, ← this, joined]
      simp

/-- Where no brackets are left open, the attributes hold all the words in their order. -/
theorem spaced_collect {pending : List (List Char)} {b : Balance} {ws : List (List Char)}
    (h : (collect pending b ws).isOpen = false) :
    spaced ((collect pending b ws).closed.map Attribute.text) = spaced (pending.reverse ++ ws) := by
  induction ws generalizing pending b with
  | nil =>
    have hp : pending = [] := by simpa [collect] using h
    simp [collect, hp]
  | cons w ws ih =>
    rw [collect] at h ⊢
    split at h
    next hbare =>
      have hp : pending = [] := by simpa using hbare.1
      rw [if_pos hbare]
      rw [push_isOpen] at h
      rw [push_closed, List.map_cons, spaced_cons, ih h, hp]
      rfl
    next hjoin =>
      rw [if_neg hjoin]
      dsimp only at h ⊢
      split at h
      next heven =>
        rw [if_pos heven]
        rw [push_isOpen] at h
        have hword : ' ' :: joined [' '] (w :: pending).reverse = spaced (w :: pending).reverse :=
          cons_joined (by simp)
        rw [push_closed, List.map_cons, spaced_cons, ih h, Attribute.text, List.reverse_nil,
          List.nil_append, List.cons_append, ← List.cons_append, hword, ← spaced_append]
        simp
      next hgo =>
        rw [if_neg hgo, ih h]
        simp

/-- Where brackets are open, or open with the next word, and none are left open at the end, the next
attribute is made of the words up to where the brackets close. -/
theorem exists_collect_eq_push {pending ws : List (List Char)} {b : Balance}
    (hopen : pending ≠ [] ∨ ∃ w ∈ ws.head?, w.any isOpener = true)
    (h : (collect pending b ws).isOpen = false) :
    ∃ ws₁ ws₂, ws = ws₁ ++ ws₂ ∧ b.ClosesAfter ws₁ ∧ collect pending b ws =
      (collect [] {} ws₂).push (.bracketed (joined [' '] (pending.reverse ++ ws₁))) := by
  induction ws generalizing pending b with
  | nil =>
    have hp : pending = [] := by simpa [collect] using h
    rcases hopen with hopen | ⟨w, hw, -⟩
    · exact absurd hp hopen
    · cases hw
  | cons w ws ih =>
    have hjoin : ¬(pending.isEmpty = true ∧ (!w.any isOpener) = true) := by
      rintro ⟨hp, hw⟩
      rcases hopen with hopen | ⟨v, hv, hany⟩
      · exact hopen (by simpa using hp)
      · obtain rfl : w = v := by simpa using hv
        rw [hany] at hw
        cases hw
    rw [collect, if_neg hjoin] at h ⊢
    dsimp only at h ⊢
    cases heven : (b.add w).isEven with
    | true =>
      refine ⟨[w], ws, rfl, heven, ?_⟩
      rw [if_pos rfl, List.reverse_cons, Balance.isEven_iff.1 heven]
    | false =>
      rw [heven, if_neg (by simp)] at h
      obtain ⟨ws₁, ws₂, rfl, hcloses, hcollect⟩ := ih (Or.inl (by simp)) h
      have hne : ws₁ ≠ [] := by
        rintro rfl
        exact hcloses
      refine ⟨w :: ws₁, ws₂, rfl, (Balance.closesAfter_cons hne).2 ⟨heven, hcloses⟩, ?_⟩
      rw [if_neg (by simp), hcollect]
      simp

/-- Each attribute is made of words of the line, a space apart. -/
theorem exists_joined_of_mem_collect {pending ws : List (List Char)} {b : Balance} {a : Attribute}
    (h : a ∈ (collect pending b ws).closed) :
    ∃ us, us ≠ [] ∧ a.text = joined [' '] us ∧ ∀ u ∈ us, u ∈ pending ∨ u ∈ ws := by
  induction ws generalizing pending b with
  | nil => exact absurd h List.not_mem_nil
  | cons w ws ih =>
    have hlater : ∀ {p : List (List Char)} {c : Balance}, (∀ u ∈ p, u ∈ pending ∨ u ∈ w :: ws) →
        a ∈ (collect p c ws).closed →
        ∃ us, us ≠ [] ∧ a.text = joined [' '] us ∧ ∀ u ∈ us, u ∈ pending ∨ u ∈ w :: ws := by
      intro p c hp ha
      obtain ⟨us, hne, htext, hus⟩ := ih ha
      refine ⟨us, hne, htext, fun u hu => ?_⟩
      rcases hus u hu with hu | hu
      · exact hp u hu
      · exact Or.inr (List.mem_cons_of_mem _ hu)
    have hnil : ∀ u ∈ ([] : List (List Char)), u ∈ pending ∨ u ∈ w :: ws :=
      fun u hu => absurd hu List.not_mem_nil
    rw [collect] at h
    split at h
    next =>
      rcases List.mem_cons.1 h with rfl | h
      · exact ⟨[w], by simp, rfl, fun u hu => Or.inr (by simp [List.mem_singleton.1 hu])⟩
      · exact hlater hnil h
    next =>
      dsimp only at h
      split at h
      next =>
        rcases List.mem_cons.1 h with rfl | h
        · refine ⟨(w :: pending).reverse, by simp, rfl, fun u hu => ?_⟩
          rcases List.mem_cons.1 (List.mem_reverse.1 hu) with rfl | hu
          · exact Or.inr List.mem_cons_self
          · exact Or.inl hu
        · exact hlater hnil h
      next =>
        refine hlater (fun u hu => ?_) h
        rcases List.mem_cons.1 hu with rfl | hu
        · exact Or.inr List.mem_cons_self
        · exact Or.inl hu

/-- The brackets of an attribute of several words even out. -/
theorem isEven_of_mem_collect {pending ws : List (List Char)} {b : Balance} {text : List Char}
    (hb : Balance.add {} (joined [' '] pending.reverse) = b)
    (h : .bracketed text ∈ (collect pending b ws).closed) : (Balance.add {} text).isEven = true := by
  induction ws generalizing pending b with
  | nil => exact absurd h List.not_mem_nil
  | cons w ws ih =>
    have hword : Balance.add {} (joined [' '] (w :: pending).reverse) = b.add w := by
      have hspace : Balance.Neutral [' '] := Balance.neutral_of_noBracket (by decide)
      rw [List.reverse_cons]
      by_cases hp : pending = []
      · subst hp
        rw [← hb]
        rfl
      · rw [Text.joined_append _ (by simpa using hp) (by simp), Balance.add_append, Balance.add_append,
          hspace, hb]
        rfl
    have hnil : Balance.add {} (joined [' '] [].reverse) = {} := rfl
    rw [collect] at h
    split at h
    next hbare =>
      obtain rfl : pending = [] := by simpa using hbare.1
      rcases List.mem_cons.1 h with h | h
      · cases h
      · exact ih hb h
    next =>
      dsimp only at h
      split at h
      next heven =>
        rcases List.mem_cons.1 h with h | h
        · rw [Attribute.bracketed.inj h, hword]
          exact heven
        · rw [Balance.isEven_iff.1 heven] at h
          exact ih hnil h
      next => exact ih hword h

end Attributes

end CatalogSync
