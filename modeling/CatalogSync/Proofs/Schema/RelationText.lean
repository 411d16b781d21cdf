import CatalogSync.Proofs.Schema.Brackets
import CatalogSync.Proofs.Text.Marks
import CatalogSync.Schema.Render
import Mathlib.Algebra.Ring.Int.Defs
import Mathlib.Algebra.Ring.Nat

/-!
Relation attributes read back. The parts of a relation are found again between the separators that
lie outside of all brackets, since a list keeps its separators inside of its brackets and no other
part has any. Each part then sets what it was written from.
-/

namespace CatalogSync

open Text (isBlank trim joined after? Unseparated)

/-- The text neither begins nor ends with white space. -/
def Trimmed (s : List Char) : Prop := trim s = s

instance (s : List Char) : Decidable (Trimmed s) := inferInstanceAs (Decidable (trim s = s))

namespace Relation

/-- How many more brackets of all kinds the text opens than it closes. -/
def depth (s : List Char) : Int := (s.map depthChange).sum

@[simp] theorem depth_nil : depth [] = 0 := rfl

@[simp] theorem depth_cons (c : Char) (s : List Char) : depth (c :: s) = depthChange c + depth s :=
  List.sum_cons

@[simp] theorem depth_append (s t : List Char) : depth (s ++ t) = depth s + depth t := by
  simp [depth]

theorem depth_of_noBracket {s : List Char} (h : NoBracket s) : depth s = 0 := by
  induction s with
  | nil => rfl
  | cons c s ih =>
    obtain ⟨ho, hc⟩ := h c List.mem_cons_self
    rw [depth_cons, ih fun d hd => h d (List.mem_cons_of_mem _ hd), depthChange, ho, hc]
    rfl

/-- No separator of the text lies outside of all brackets; `d` of them are open in front of it. -/
def Inner (d : Int) (s : List Char) : Prop := ∀ x y, s = x ++ ',' :: ' ' :: y → d + depth x ≠ 0

theorem inner_of_unseparated {s : List Char} (h : Unseparated s) (d : Int) : Inner d s := by
  intro x y hs
  rw [hs] at h
  exact absurd ⟨rfl, rfl⟩ (List.isChain_append_cons_cons.1 h).2.1

theorem inner_of_noBracket {s : List Char} (h : NoBracket s) {d : Int} (hd : d ≠ 0) :
    Inner d s := by
  intro x y hs
  rw [depth_of_noBracket fun c hc => h c (by rw [hs]; exact List.mem_append_left _ hc)]
  omega

theorem Inner.append {d : Int} {s t : List Char} (hs : Inner d s) (ht : Inner (d + depth s) t)
    (h : d + depth s ≠ 0 ∨ t.head? ≠ some ' ') : Inner d (s ++ t) := by
  intro x y hxy
  rcases List.append_eq_append_iff.1 hxy with ⟨a, rfl, hy⟩ | ⟨a, hx, hy⟩
  · have := ht a y hy
    rw [depth_append]
    omega
  · -- the separator begins in the first text, and ends there or in the second
    cases a with
    | nil =>
      have hsx : s = x := by simpa using hx
      have := ht [] y (by simpa using hy.symm)
      rw [← hsx]
      simpa using this
    | cons c a =>
      obtain ⟨rfl, hrest⟩ := List.cons.inj hy
      cases a with
      | nil =>
        have htail : t = ' ' :: y := by simpa using hrest.symm
        have hdepth : depth s = depth x := by
          rw [hx, depth_append]
          have hcomma : depth [','] = 0 := by decide
          omega
        rcases h with h | h
        · omega
        · exact absurd (by rw [htail]; rfl) h
      | cons e a =>
        obtain ⟨rfl, -⟩ := List.cons.inj hrest
        exact hs x a hx

theorem topLevelPieces_ne_nil (d : Int) (skip : Bool) (s : List Char) :
    topLevelPieces d skip s ≠ [] := by
  fun_induction topLevelPieces d skip s <;> simp_all

/-- A text whose separators lie in brackets belongs to the first piece as a whole. -/
theorem topLevelPieces_append {d : Int} {s : List Char} (hs : Inner d s) {t : List Char}
    (ht : d + depth s ≠ 0 ∨ t.head? ≠ some ' ') : topLevelPieces d false (s ++ t) =
      (topLevelPieces (d + depth s) false t).modifyHead (s ++ ·) := by
  induction s generalizing d with
  | nil =>
    rw [depth_nil, Int.add_zero, List.nil_append]
    cases topLevelPieces d false t <;> rfl
  | cons c s ih =>
    have hstart : ¬(d + depthChange c = 0 ∧ Text.startsWith [',', ' '] (c :: (s ++ t)) = true) := by
      rintro ⟨hd, hstart⟩
      obtain ⟨rest, hmark⟩ := Text.startsWith_iff.1 hstart
      obtain ⟨rfl, hrest⟩ := List.cons.inj hmark
      have hcomma : depthChange ',' = 0 := by decide
      cases s with
      | nil =>
        rcases ht with ht | ht
        · rw [depth_cons, depth_nil] at ht
          omega
        · have : t = ' ' :: rest := hrest
          exact ht (by rw [this]; rfl)
      | cons e s =>
        obtain ⟨rfl, -⟩ := List.cons.inj hrest
        have := hs [] s rfl
        rw [depth_nil] at this
        omega
    have hinner : Inner (d + depthChange c) s := by
      intro x y hxy
      have := hs (c :: x) y (by rw [hxy]; rfl)
      rw [depth_cons] at this
      omega
    have hrest := ih hinner (by rw [depth_cons] at ht; rwa [Int.add_assoc])
    obtain ⟨first, others, hpieces⟩ := List.exists_cons_of_ne_nil
      (topLevelPieces_ne_nil (d + depth (c :: s)) false t)
    rw [Int.add_assoc, ← depth_cons, hpieces, List.modifyHead_cons] at hrest
    rw [List.cons_append, topLevelPieces, hpieces, List.modifyHead_cons]
    simp only [Bool.false_eq_true, if_false, if_neg hstart, hrest, List.cons_append]

theorem topLevelPieces_separator (t : List Char) :
    topLevelPieces 0 false (',' :: ' ' :: t) = [] :: topLevelPieces 0 false t := by
  have hcomma : depthChange ',' = 0 := by decide
  simp [topLevelPieces, hcomma, Text.startsWith, after?]

/-- Parts that keep their separators in brackets are found again, where each but the last closes what it
opens. -/
theorem topLevelPieces_joined {parts : List (List Char)} (hne : parts ≠ [])
    (hinner : ∀ p ∈ parts, Inner 0 p) (hdepth : ∀ p ∈ parts.dropLast, depth p = 0) :
    topLevelPieces 0 false (joined [',', ' '] parts) = parts := by
  induction parts with
  | nil => exact absurd rfl hne
  | cons p parts ih =>
    obtain ⟨hfirst, hinners⟩ := List.forall_mem_cons.1 hinner
    cases parts with
    | nil =>
      have := topLevelPieces_append hfirst (t := []) (Or.inr (by simp))
      simpa [joined, topLevelPieces] using this
    | cons next parts =>
      rw [List.dropLast_cons_of_ne_nil (by simp), List.forall_mem_cons] at hdepth
      obtain ⟨hdepth, hdepths⟩ := hdepth
      have hrest := ih (by simp) hinners hdepths
      rw [joined, List.append_assoc, topLevelPieces_append hfirst (Or.inr (by simp)), hdepth,
        List.cons_append, List.cons_append, List.nil_append, Int.add_zero,
        topLevelPieces_separator, hrest]
      simp

/-- The pieces of joined parts are the parts, trimmed. -/
theorem splitTopLevel_joined {parts : List (List Char)}
    (h : ∀ p ∈ parts, Inner 0 p ∧ depth p = 0) (hblank : ∀ p ∈ parts, trim p ≠ []) :
    splitTopLevel (joined [',', ' '] parts) = parts.map trim := by
  cases parts with
  | nil => rfl
  | cons p parts =>
    rw [splitTopLevel, topLevelPieces_joined (by simp) (fun q hq => (h q hq).1)
      (fun q hq => (h q (List.dropLast_subset _ hq)).2), trimmedPieces]
    refine List.filter_eq_self.2 fun q hq => ?_
    obtain ⟨p', hp', rfl⟩ := List.mem_map.1 hq
    simpa using hblank p' hp'

/-! ### What a part sets -/

theorem keyOf?_word_append (key : PartKey) (value : List Char) :
    keyOf? (key.word.toList ++ value) = some (key, value) := by
  cases key <;> rfl

/-- An item that a list keeps as it is: not empty, trimmed, without brackets and separators. -/
structure PlainItem (item : String) : Prop where
  ne_nil : item.toList ≠ []
  trimmed : Trimmed item.toList
  noBracket : NoBracket item.toList
  unseparated : Unseparated item.toList

theorem noBracket_joined {items : List (List Char)} (h : ∀ i ∈ items, NoBracket i) :
    NoBracket (joined [',', ' '] items) := by
  have hsep : ∀ c ∈ [',', ' '], isOpener c = false ∧ isCloser c = false := by decide
  exact Text.forall_mem_joined hsep h

theorem trimmed_renderList (items : List String) : Trimmed (renderList items) := by
  refine Text.trim_eq_self (fun c hc => ?_) fun c hc => ?_
  · obtain rfl : c = '[' := by simpa [renderList, eq_comm] using hc
    rfl
  · obtain rfl : c = ']' := by simpa [renderList, List.getLast?_cons, eq_comm] using hc
    rfl

theorem trimmed_quoted (name : List Char) : Trimmed ('"' :: name ++ ['"']) := by
  refine Text.trim_eq_self (fun c hc => ?_) fun c hc => ?_
  · obtain rfl : c = '"' := by simpa [eq_comm] using hc
    rfl
  · obtain rfl : c = '"' := by simpa [List.getLast?_cons, eq_comm] using hc
    rfl

/-- Plain items are found again in the text that joins them. -/
theorem ofList_pieces_joined {items : List String} (h : ∀ i ∈ items, PlainItem i) :
    (trimmedPieces (Text.splitOn [',', ' '] (joined [',', ' '] (items.map (·.toList))))).map
      String.ofList = items := by
  have hself : ∀ i ∈ items.map (·.toList), trim i = i ∧ i ≠ [] := by
    intro i hi
    obtain ⟨item, hitem, rfl⟩ := List.mem_map.1 hi
    exact ⟨(h item hitem).trimmed, (h item hitem).ne_nil⟩
  have hpieces : trimmedPieces (Text.splitOn [',', ' '] (joined [',', ' '] (items.map (·.toList))))
      = items.map (·.toList) := by
    cases items with
    | nil => rfl
    | cons i items =>
      rw [Text.splitOn_joined (by simp), trimmedPieces, List.map_congr_left fun j hj =>
        (hself j hj).1, List.map_id']
      · exact List.filter_eq_self.2 fun j hj => by simpa using (hself j hj).2
      · intro j hj
        obtain ⟨item, hitem, rfl⟩ := List.mem_map.1 hj
        exact (h item hitem).unseparated
  rw [hpieces, List.map_map]
  simp [Function.comp_def]

theorem parseList_renderList {items : List String} (h : ∀ i ∈ items, PlainItem i) :
    parseList (renderList items) = items := by
  have htrim : trim (renderList items) = renderList items := trimmed_renderList items
  have hinner : withoutBrackets (renderList items) =
      joined [',', ' '] (items.map (·.toList)) := by
    simp [renderList, withoutBrackets]
  rw [parseList, htrim, hinner, ofList_pieces_joined h]

theorem trimmed_joined {items : List (List Char)} (h : ∀ i ∈ items, i ≠ [] ∧ Trimmed i) :
    Trimmed (joined [',', ' '] items) := by
  have hends : (∀ c ∈ (joined [',', ' '] items).head?, Text.isBlank c = false) ∧
      ∀ c ∈ (joined [',', ' '] items).getLast?, Text.isBlank c = false := by
    induction items with
    | nil => exact ⟨by simp [joined], by simp [joined]⟩
    | cons i items ih =>
      obtain ⟨hne, htrim⟩ := h i List.mem_cons_self
      obtain ⟨hfirst, hlast⟩ := Text.trim_eq_self_iff.1 htrim
      cases items with
      | nil => exact ⟨hfirst, hlast⟩
      | cons next items =>
        obtain ⟨-, hrest⟩ := ih fun j hj => h j (List.mem_cons_of_mem _ hj)
        have hnext : joined [',', ' '] (next :: items) ≠ [] := by
          have := (h next (by simp)).1
          cases items <;> simp [joined, this]
        rw [joined, List.append_assoc, List.head?_append_of_ne_nil _ hne, ← List.append_assoc,
          List.getLast?_append_of_ne_nil _ hnext]
        exact ⟨hfirst, hrest⟩
  exact Text.trim_eq_self hends.1 hends.2

/-- Plain items are read back without brackets around them as well. -/
theorem parseList_joined {items : List String} (h : ∀ i ∈ items, PlainItem i) :
    parseList (joined [',', ' '] (items.map (·.toList))) = items := by
  have htrim : trim (joined [',', ' '] (items.map (·.toList))) =
      joined [',', ' '] (items.map (·.toList)) := by
    refine trimmed_joined fun i hi => ?_
    obtain ⟨item, hitem, rfl⟩ := List.mem_map.1 hi
    exact ⟨(h item hitem).ne_nil, (h item hitem).trimmed⟩
  have hnone : NoBracket (joined [',', ' '] (items.map (·.toList))) := by
    refine noBracket_joined fun i hi => ?_
    obtain ⟨item, hitem, rfl⟩ := List.mem_map.1 hi
    exact (h item hitem).noBracket
  have hwithout : withoutBrackets (joined [',', ' '] (items.map (·.toList))) =
      joined [',', ' '] (items.map (·.toList)) := by
    rw [withoutBrackets]
    intro rest heq
    have := (hnone '[' (by rw [heq]; exact List.mem_cons_self)).1
    cases this
  rw [parseList, htrim, hwithout, ofList_pieces_joined h]

theorem unquote_quoted (name : List Char) : unquote ('"' :: name ++ ['"']) = name := by
  have htrim : trim ('"' :: name ++ ['"']) = '"' :: name ++ ['"'] := trimmed_quoted name
  rw [unquote, htrim]
  simp

/-- What a part sets does not depend on white space around its value. -/
theorem setPart_congr (r : Relation) (key : PartKey) {v w : List Char} (h : trim v = trim w) :
    r.setPart key v = r.setPart key w := by
  cases key <;> simp only [setPart, parseList, unquote, h]

/-! ### The parts of a relation -/

/-- The parts that are present with their values as written. -/
def parts (r : Relation) : List (PartKey × List Char) :=
  (r.fields.map fun names => (PartKey.fields, renderList names)).toList
    ++ (r.references.map fun names => (PartKey.references, renderList names)).toList
    ++ (r.mapName.map fun name => (PartKey.map, '"' :: name.toList ++ ['"'])).toList
    ++ (r.onDelete.map fun action => (PartKey.onDelete, action.toList)).toList
    ++ (r.onUpdate.map fun action => (PartKey.onUpdate, action.toList)).toList

/-- The text of a part. -/
def partText (part : PartKey × List Char) : List Char := part.1.word.toList ++ ' ' :: part.2

theorem renderParts_eq (r : Relation) : r.renderParts = r.parts.map partText := by
  simp only [renderParts, parts, List.map_append, ← Option.toList_map, Option.map_map]
  simp [Function.comp_def, partText, PartKey.word]

theorem mem_parts {r : Relation} {part : PartKey × List Char} (h : part ∈ r.parts) :
    (∃ names ∈ r.fields, (.fields, renderList names) = part)
      ∨ (∃ names ∈ r.references, (.references, renderList names) = part)
      ∨ (∃ name ∈ r.mapName, (.map, '"' :: name.toList ++ ['"']) = part)
      ∨ (∃ action ∈ r.onDelete, (.onDelete, action.toList) = part)
      ∨ ∃ action ∈ r.onUpdate, (.onUpdate, action.toList) = part := by
  simpa only [parts, List.mem_append, Option.mem_toList, or_assoc, Option.mem_def,
    Option.map_eq_some_iff] using h

/-- A relation whose parts are kept apart: items that a list keeps, and other texts without
brackets and separators, trimmed where no quotes stand around them. -/
structure Readable (r : Relation) : Prop where
  fields : ∀ names ∈ r.fields, ∀ item ∈ names, PlainItem item
  references : ∀ names ∈ r.references, ∀ item ∈ names, PlainItem item
  mapName : ∀ name ∈ r.mapName, NoBracket name.toList ∧ Unseparated name.toList
  onDelete : ∀ action ∈ r.onDelete,
    Trimmed action.toList ∧ NoBracket action.toList ∧ Unseparated action.toList
  onUpdate : ∀ action ∈ r.onUpdate,
    Trimmed action.toList ∧ NoBracket action.toList ∧ Unseparated action.toList

theorem noBracket_word (key : PartKey) : NoBracket (key.word.toList ++ [' ']) := by
  have hall : (key.word.toList ++ [' ']).all (fun c => !isOpener c && !isCloser c) = true := by
    cases key <;> decide
  intro c hc
  simpa using List.all_eq_true.1 hall c hc

theorem unseparated_word (key : PartKey) : Unseparated (key.word.toList ++ [' ']) := by
  cases key <;> decide

/-- A value without brackets and separators leaves its part without any. -/
theorem partText_of_noBracket (key : PartKey) {value : List Char} (hb : NoBracket value)
    (hu : Unseparated value) : Inner 0 (partText (key, value)) ∧ depth (partText (key, value)) = 0 := by
  have htext : partText (key, value) = (key.word.toList ++ [' ']) ++ value := by simp [partText]
  have hword := noBracket_word key
  rw [htext]
  refine ⟨inner_of_unseparated (List.isChain_append.2 ⟨unseparated_word key, hu, ?_⟩) 0,
    depth_of_noBracket (hword.append hb)⟩
  intro c hc d _ hcd
  obtain rfl : c = ' ' := by simpa [eq_comm] using hc
  exact absurd hcd.1 (by decide)

/-- A list keeps its separators in its brackets. -/
theorem partText_renderList (key : PartKey) {items : List String}
    (h : ∀ i ∈ items, NoBracket i.toList) :
    Inner 0 (partText (key, renderList items)) ∧ depth (partText (key, renderList items)) = 0 := by
  have hitems : NoBracket (joined [',', ' '] (items.map (·.toList))) := by
    refine noBracket_joined fun i hi => ?_
    obtain ⟨item, hitem, rfl⟩ := List.mem_map.1 hi
    exact h item hitem
  have htext : partText (key, renderList items) =
      (key.word.toList ++ [' ']) ++ (['['] ++ (joined [',', ' '] (items.map (·.toList)) ++ [']'])) :=
    by simp [partText, renderList]
  have hword := depth_of_noBracket (noBracket_word key)
  have hopen : depth ['['] = 1 := by decide
  have hclose : depth [']'] = -1 := by decide
  have hin := depth_of_noBracket hitems
  rw [htext]
  constructor
  · refine (inner_of_unseparated (unseparated_word key) 0).append ?_ (Or.inr (by simp))
    refine (inner_of_unseparated (by decide) _).append ?_ (Or.inl (by omega))
    exact (inner_of_noBracket hitems (by omega)).append (inner_of_unseparated (by decide) _)
      (Or.inl (by omega))
  · simp only [depth_append] at hword ⊢
    omega

theorem Readable.partText {r : Relation} (h : r.Readable) {part : PartKey × List Char}
    (hp : part ∈ r.parts) : Inner 0 (partText part) ∧ depth (Relation.partText part) = 0 := by
  rcases mem_parts hp with ⟨names, hn, rfl⟩ | ⟨names, hn, rfl⟩ | ⟨name, hn, rfl⟩ | ⟨action, hn, rfl⟩
    | ⟨action, hn, rfl⟩
  · exact partText_renderList _ fun i hi => (h.fields names hn i hi).noBracket
  · exact partText_renderList _ fun i hi => (h.references names hn i hi).noBracket
  · obtain ⟨hb, hu⟩ := h.mapName name hn
    have hquote : NoBracket ['"'] := by
      intro c hc
      obtain rfl : c = '"' := by simpa using hc
      decide
    refine partText_of_noBracket _ ((hquote.append hb).append hquote) ?_
    show Unseparated (['"'] ++ name.toList ++ ['"'])
    refine List.isChain_append.2 ⟨?_, by simp, ?_⟩
    · refine List.isChain_append.2 ⟨by simp, hu, ?_⟩
      intro c hc d _ hcd
      obtain rfl : c = '"' := by simpa [eq_comm] using hc
      exact absurd hcd.1 (by decide)
    · intro c _ d hd hcd
      obtain rfl : d = '"' := by simpa [eq_comm] using hd
      exact absurd hcd.2 (by decide)
  · exact partText_of_noBracket _ (h.onDelete action hn).2.1 (h.onDelete action hn).2.2
  · exact partText_of_noBracket _ (h.onUpdate action hn).2.1 (h.onUpdate action hn).2.2

theorem Readable.trimmed {r : Relation} (h : r.Readable) {part : PartKey × List Char}
    (hp : part ∈ r.parts) : Trimmed part.2 := by
  rcases mem_parts hp with ⟨names, hn, rfl⟩ | ⟨names, hn, rfl⟩ | ⟨name, hn, rfl⟩ | ⟨action, hn, rfl⟩
    | ⟨action, hn, rfl⟩
  · exact trimmed_renderList names
  · exact trimmed_renderList names
  · exact trimmed_quoted name.toList
  · exact (h.onDelete action hn).1
  · exact (h.onUpdate action hn).1

/-- Trimming a part takes no more than the space behind its key, and that only where its value is
empty. -/
theorem trim_partText {part : PartKey × List Char} (h : Trimmed part.2) :
    ∃ value, trim (partText part) = part.1.word.toList ++ value ∧ trim value = part.2 := by
  obtain ⟨key, value⟩ := part
  have hfirst : ∀ t : List Char, ∀ c ∈ (key.word.toList ++ t).head?, isBlank c = false := by
    intro t c hc
    cases key <;> (obtain rfl := Option.some.inj hc; rfl)
  cases value with
  | nil =>
    refine ⟨[], ?_, rfl⟩
    have hlast : ∀ c ∈ key.word.toList.getLast?, isBlank c = false := by
      intro c hc
      cases key <;> (obtain rfl := Option.some.inj hc; rfl)
    have hword : ∀ c ∈ key.word.toList.head?, isBlank c = false := by
      simpa using hfirst []
    have := Text.trim_append [] [' '] (by simp) (by simp [Text.isBlank_space]) hword hlast
    simpa [partText] using this
  | cons c value =>
    refine ⟨' ' :: c :: value, ?_, by rw [Text.trim_cons Text.isBlank_space]; exact h⟩
    refine Text.trim_eq_self (hfirst _) ?_
    have hlast := (Text.trim_eq_self_iff.1 h).2
    intro d hd
    refine hlast d ?_
    simpa [partText, List.getLast?_append, List.getLast?_cons_cons] using hd

/-- The relation with a list of parts set, from the left. -/
def setParts (r : Relation) (ps : List (PartKey × List Char)) : Relation :=
  ps.foldl (fun r p => r.setPart p.1 p.2) r

theorem setParts_append (r : Relation) (ps qs : List (PartKey × List Char)) :
    r.setParts (ps ++ qs) = (r.setParts ps).setParts qs := List.foldl_append

/-- An optional part is set where it is present, and nothing is where it is absent. -/
theorem setParts_optional {α : Type} (r : Relation) (key : PartKey) (write : α → List Char)
    (o : Option α) : r.setParts (o.map fun a => (key, write a)).toList =
      o.elim r fun a => r.setPart key (write a) := by
  cases o <;> rfl

/-- Trimmed parts set what they were written from, one after another. -/
theorem addPieces_partText (whole : List Char) {ps : List (PartKey × List Char)}
    (h : ∀ p ∈ ps, Trimmed p.2) (r : Relation) :
    addPieces whole r ((ps.map partText).map trim) =
      .ok (r.setParts ps) := by
  induction ps generalizing r with
  | nil => rfl
  | cons p ps ih =>
    have hp := h p List.mem_cons_self
    obtain ⟨value, htext, hvalue⟩ := trim_partText hp
    have hset : r.setPart p.1 value = r.setPart p.1 p.2 :=
      setPart_congr r p.1 (by rw [hvalue]; exact hp.symm)
    rw [List.map_cons, List.map_cons, htext, addPieces, keyOf?_word_append]
    simp only [hset]
    exact ih (fun q hq => h q (List.mem_cons_of_mem _ hq)) _

/-- Setting all parts of a relation, from none, gives the relation. -/
theorem setParts_parts {r : Relation} (h : r.Readable) : setParts {} r.parts = r := by
  obtain ⟨mapName, fields, references, onUpdate, onDelete⟩ := r
  have hfields : setParts {} (fields.map fun names => (.fields, renderList names)).toList =
      { fields := fields } := by
    rw [setParts_optional]
    cases fields with
    | none => rfl
    | some names => rw [Option.elim_some, setPart, parseList_renderList (h.fields names rfl)]
  have hreferences : setParts { fields := fields }
      (references.map fun names => (.references, renderList names)).toList =
      { fields := fields, references := references } := by
    rw [setParts_optional]
    cases references with
    | none => rfl
    | some names => rw [Option.elim_some, setPart, parseList_renderList (h.references names rfl)]
  have hmap : setParts { fields := fields, references := references }
      (mapName.map fun name => (.map, '"' :: name.toList ++ ['"'])).toList =
      { mapName := mapName, fields := fields, references := references } := by
    rw [setParts_optional]
    cases mapName with
    | none => rfl
    | some name => rw [Option.elim_some, setPart, unquote_quoted, String.ofList_toList]
  have hdelete : setParts { mapName := mapName, fields := fields, references := references }
      (onDelete.map fun action => (.onDelete, action.toList)).toList =
      { mapName := mapName, fields := fields, references := references, onDelete := onDelete } := by
    rw [setParts_optional]
    cases onDelete with
    | none => rfl
    | some action => rw [Option.elim_some, setPart, (h.onDelete action rfl).1, String.ofList_toList]
  have hupdate : setParts
      { mapName := mapName, fields := fields, references := references, onDelete := onDelete }
      (onUpdate.map fun action => (.onUpdate, action.toList)).toList =
      ⟨mapName, fields, references, onUpdate, onDelete⟩ := by
    rw [setParts_optional]
    cases onUpdate with
    | none => rfl
    | some action => rw [Option.elim_some, setPart, (h.onUpdate action rfl).1, String.ofList_toList]
  simp only [parts, setParts_append]
  rw [hfields, hreferences, hmap, hdelete, hupdate]

/-- What stands between the first parenthesis of the attribute and its last one. -/
theorem body_attribute (inner : List Char) :
    body ("@relation(".toList ++ inner ++ [')']) = inner := by
  have hsign : ∃ rest, "@relation(".toList = '@' :: rest := ⟨"relation(".toList, by simp⟩
  rw [body]
  generalize "@relation(".toList = mark at hsign ⊢
  obtain ⟨rest, rfl⟩ := hsign
  have htrim : trim ('@' :: rest ++ inner ++ [')']) = '@' :: rest ++ inner ++ [')'] := by
    refine Text.trim_eq_self (fun c hc => ?_) fun c hc => ?_
    · obtain rfl : c = '@' := by simpa [eq_comm] using hc
      rfl
    · rw [List.getLast?_append] at hc
      obtain rfl : c = ')' := by simpa [eq_comm] using hc
      rfl
  rw [htrim, List.append_assoc, Text.after?_append]
  simp

/-- A relation whose parts are kept apart is read back from its attribute. -/
theorem parse_of_readable {r : Relation} (h : r.Readable) : parse r.render = .ok r := by
  have hparts : ∀ p ∈ r.renderParts, Inner 0 p ∧ depth p = 0 := by
    rw [renderParts_eq]
    intro p hp
    obtain ⟨part, hpart, rfl⟩ := List.mem_map.1 hp
    exact h.partText hpart
  have hblank : ∀ p ∈ r.renderParts, trim p ≠ [] := by
    rw [renderParts_eq]
    intro p hp
    obtain ⟨part, hpart, rfl⟩ := List.mem_map.1 hp
    obtain ⟨value, htext, -⟩ := trim_partText (h.trimmed hpart)
    rw [htext]
    cases part.1 <;> simp [PartKey.word]
  have hpieces : splitTopLevel (body r.render) = (r.parts.map partText).map trim := by
    rw [← renderParts_eq, ← splitTopLevel_joined hparts hblank]
    exact congrArg splitTopLevel (body_attribute _)
  rw [parse, hpieces, addPieces_partText _ fun p hp => h.trimmed hp, setParts_parts h]

/-- The attribute says everything about a relation whose parts are kept apart: it reads back as the
relation, whatever parts are present, and no other such relation has it. So an absent list and an empty
one are written differently, as are an absent action and an empty one. -/
theorem parse_render_of_readable {r : Relation} (h : r.Readable) :
    parse r.render = .ok r ∧ ∀ q : Relation, q.Readable → (q.render = r.render ↔ q = r) := by
  have hread := parse_of_readable h
  refine ⟨hread, fun q hq => ⟨fun heq => ?_, fun heq => by rw [heq]⟩⟩
  have hsame : (.ok q : Except Fault Relation) = .ok r := by
    rw [← parse_of_readable hq, heq, hread]
  exact Except.ok.inj hsame

/-- An item that ends in a comma, an empty list, a name with quotes of its own and an empty action. -/
theorem parse_render_awkward :
    parse (render ⟨some " \"fk,\" ", some ["a,", "b c"], some [], none, some ""⟩) =
        .ok ⟨some " \"fk,\" ", some ["a,", "b c"], some [], none, some ""⟩ ∧
      render ⟨some " \"fk,\" ", some ["a,", "b c"], none, none, some ""⟩ ≠
        render ⟨some " \"fk,\" ", some ["a,", "b c"], some [], none, some ""⟩ := by
  have hitems : ∀ item ∈ ["a,", "b c"], PlainItem item := by
    intro item hitem
    rcases List.mem_pair.1 hitem with rfl | rfl <;>
      exact ⟨by decide, by decide, by decide, by decide⟩
  have hreadable : ∀ references ∈ [none, some []],
      Readable ⟨some " \"fk,\" ", some ["a,", "b c"], references, none, some ""⟩ := by
    intro references hreferences
    refine ⟨by rintro _ ⟨⟩; exact hitems, ?_, by rintro _ ⟨⟩; decide, by rintro _ ⟨⟩; decide, nofun⟩
    rcases List.mem_pair.1 hreferences with rfl | rfl
    · nofun
    · rintro _ ⟨⟩
      exact List.forall_mem_nil _
  obtain ⟨hread, hother⟩ := parse_render_of_readable (hreadable (some []) (by simp))
  exact ⟨hread, fun heq => nomatch (hother _ (hreadable none (by simp))).1 heq⟩

end Relation

end CatalogSync
