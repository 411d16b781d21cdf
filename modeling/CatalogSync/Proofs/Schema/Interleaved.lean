import CatalogSync.Proofs.Schema.RoundTrip
import CatalogSync.Proofs.Text.Respaced
import Mathlib.Data.List.Perm.Basic

/-!
Field lines in any order and spacing. Each attribute is found wherever it stands behind the type, whatever
white space is around and in it and whatever foreign words are between; and each says its own part of the
field, so that their order does not matter.
-/

namespace CatalogSync

open Text (isBlank words startsWith NoBlank Respaced Stretchwise)
open UniqueFlag (marked extract)
open Attributes (Stands)

namespace UniqueFlag

theorem not_mem_sign {c : Char} (hc : isBlank c = true) : c ∉ sign := by
  have hsign : NoBlank sign := by decide
  intro hmem
  rw [hsign c hmem] at hc
  cases hc

/-- A text is marked where one of its stretches is. -/
theorem stretchwise_marked : Stretchwise (marked false) (· || ·) :=
  ⟨fun s t _ hc => marked_append_cons (not_mem_sign hc) false s t, Bool.false_or, Bool.or_false⟩

/-- Behind a text that is not marked and white space, a written mark is taken out with its name. -/
theorem extract_append_run {s run t : List Char} (u : UniqueFlag) (hs : marked false s = false)
    (hne : run ≠ []) (hrun : ∀ c ∈ run, isBlank c = true)
    (hname : ∀ name ∈ u.mapName, '"' ∉ name.toList) (ht : t.head? ≠ some '(') :
    extract (s ++ run ++ (u.render ++ t)) = (s ++ run ++ t, some u) := by
  obtain ⟨front, c, rfl⟩ : ∃ front c, run = front ++ [c] :=
    ⟨run.dropLast, run.getLast hne, (List.dropLast_append_getLast hne).symm⟩
  have hc : isBlank c = true := hrun c (by simp)
  have hfront : marked false (s ++ front) = false := by
    rw [stretchwise_marked.append_right s fun d hd => hrun d (by simp [hd]), hs]
  have hline : ∀ r, s ++ (front ++ [c]) ++ r = (s ++ front) ++ c :: r := by simp
  rw [hline, hline, extract, extractFrom_append_cons (not_mem_sign hc) hfront,
    extractFrom_render u hname ht]

end UniqueFlag

namespace Field

/-! ### What each attribute says -/

/-- The parts of a field that attributes say, the mark for unique values apart. -/
inductive Part where
  | key
  | default
  | native
  | relation

/-- A field with one part of another. -/
def withPart (f g : Field) : Part → Field
  | .key => { g with isId := f.isId }
  | .default => { g with defaultExpr := f.defaultExpr }
  | .native => { g with nativeType := f.nativeType }
  | .relation => { g with relation := f.relation }

theorem withPart_comm (f g : Field) (p q : Part) :
    f.withPart (f.withPart g p) q = f.withPart (f.withPart g q) p := by
  cases p <;> cases q <;> rfl

theorem exists_withPart_of_mem_attributes {f : Field} (h : f.AttributesFit) {ids : Nat} {a : Attribute}
    (ha : a ∈ f.attributes ids) : ∃ p, ∀ g : Field, g.withAttribute a = .ok (f.withPart g p) := by
  simp only [attributes, List.mem_append, Option.mem_toList,
    Option.map_eq_some_iff] at ha
  rcases ha with ((ha | ⟨e, he, rfl⟩) | ⟨t, ht, rfl⟩) | ⟨r, hr, rfl⟩
  · split at ha
    next hid =>
      obtain rfl := List.mem_singleton.1 ha
      exact ⟨.key, fun g => by rw [withAttribute_id, withPart, hid.1]⟩
    next => exact absurd ha List.not_mem_nil
  · exact ⟨.default, fun g => by rw [withAttribute_defaultText, withPart, he, String.ofList_toList]⟩
  · exact ⟨.native, fun g => by rw [withAttribute_nativeAttribute, withPart, ht, String.ofList_toList]⟩
  · exact ⟨.relation, fun g => by rw [withAttribute_relation g (h.relation r hr), withPart, hr]⟩

/-- Attributes that may change places in pairs may stand in any order. -/
theorem withAttributes_perm {as bs : List Attribute} (h : as.Perm bs)
    (hswap : ∀ a ∈ as, ∀ b ∈ as, ∀ g : Field, g.withAttributes [a, b] = g.withAttributes [b, a]) :
    ∀ g : Field, g.withAttributes as = g.withAttributes bs := by
  induction h with
  | nil => exact fun _ => rfl
  | cons a _ ih =>
    intro g
    rw [withAttributes, withAttributes]
    cases g.withAttribute a with
    | error e => rfl
    | ok g' =>
      exact ih (fun b hb c hc => hswap b (List.mem_cons_of_mem _ hb) c (List.mem_cons_of_mem _ hc)) g'
  | swap a b as =>
    intro g
    have hfirst : ∀ a b : Attribute, a :: b :: as = [a, b] ++ as := fun _ _ => rfl
    rw [hfirst, hfirst, withAttributes_append, withAttributes_append,
      hswap b (by simp) a (by simp)]
  | trans hperm _ ih₁ ih₂ =>
    intro g
    rw [ih₁ hswap g]
    exact ih₂ (fun a ha b hb => hswap a (hperm.mem_iff.2 ha) b (hperm.mem_iff.2 hb)) g

/-- The attributes of a field say the same in any order. -/
theorem withAttributes_of_perm {f : Field} (h : f.AttributesFit) {ids : Nat} {as : List Attribute}
    (has : as.Perm (f.attributes ids)) (g : Field) :
    g.withAttributes as = g.withAttributes (f.attributes ids) := by
  refine withAttributes_perm has (fun a ha b hb g => ?_) g
  obtain ⟨p, hp⟩ := exists_withPart_of_mem_attributes h (has.mem_iff.1 ha)
  obtain ⟨q, hq⟩ := exists_withPart_of_mem_attributes h (has.mem_iff.1 hb)
  simp only [withAttributes, hp, hq, withPart_comm]

/-! ### Foreign words -/

/-- A word that is no attribute which a field knows: it closes what it opens, and does not look like one of
them. -/
@[mk_iff]
structure ForeignWord (w : List Char) : Prop where
  ne_nil : w ≠ []
  noBlank : NoBlank w
  even : (Balance.add {} w).isEven = true
  ne_id : w ≠ "@id".toList
  noUnique : ¬"@unique".toList <:+: w
  noNative : startsWith "@db.".toList w = false
  noDefault : startsWith "@default(".toList w = false
  noRelation : startsWith "@relation".toList w = false

instance (w : List Char) : Decidable (ForeignWord w) := decidable_of_iff' _ (foreignWord_iff w)

theorem ForeignWord.unmarked {w : List Char} (h : ForeignWord w) : marked false w = false := by
  refine Bool.eq_false_iff.2 fun hmarked => h.noUnique ?_
  obtain ⟨x, y, rfl, -⟩ := UniqueFlag.marked_iff.1 hmarked
  exact ⟨x, y, rfl⟩

/-- A foreign word is read as an attribute of its own, which says nothing. -/
theorem ForeignWord.exists_stands {w : List Char} (h : ForeignWord w) :
    ∃ a, Stands w a ∧ ∀ g : Field, g.withAttribute a = .ok g := by
  have hnative : Text.after? "@db.".toList w = none := Text.after?_eq_none_iff.2 h.noNative
  cases hopen : w.any isOpener with
  | false =>
    refine ⟨.bare w, Attributes.stands_bare h.ne_nil h.noBlank hopen, fun g => ?_⟩
    rw [withAttribute, if_neg h.ne_id, hnative]
  | true =>
    refine ⟨.bracketed w, Attributes.stands_bracketed_word h.noBlank hopen h.even, fun g => ?_⟩
    have hkind : kindOf w = .other := by
      rw [kindOf, hnative, h.noRelation, Text.after?_eq_none_iff.2 h.noDefault]
      rfl
    rw [withAttribute, hkind]

/-! ### Attributes and foreign words in a line -/

/-- The spelling `t` of the attribute `a`: white space of any length may stand for each space in a default
expression and in a relation, and all else is spelled as it is. -/
def SpelledAs (a t : List Char) : Prop :=
  if startsWith "@default(".toList a ∨ startsWith "@relation(".toList a then Respaced a t else t = a

theorem SpelledAs.respaced {a t : List Char} (h : SpelledAs a t) : Respaced a t := by
  unfold SpelledAs at h
  split at h
  · exact h
  · subst h
    exact Respaced.refl t

theorem SpelledAs.refl (a : List Char) : SpelledAs a a := by
  unfold SpelledAs
  split
  · exact Respaced.refl a
  · rfl

theorem SpelledAs.eq_render {u : UniqueFlag} {t : List Char} (h : SpelledAs u.render t) :
    t = u.render := by
  have hsign : startsWith "@default(".toList u.render = false ∧
      startsWith "@relation(".toList u.render = false := by
    obtain ⟨mapName⟩ := u
    cases mapName <;> exact ⟨rfl, rfl⟩
  rwa [SpelledAs, hsign.1, hsign.2, if_neg (by simp)] at h

/-- What may stand behind the type: the attributes in this order, white space in front of each, and foreign
words anywhere between them. -/
inductive Interleaved : List (List Char) → List Char → Prop
  | nil {run : List Char} (hrun : ∀ c ∈ run, isBlank c = true) : Interleaved [] run
  | known {run a t rest : List Char} {as : List (List Char)} (hne : run ≠ [])
      (hrun : ∀ c ∈ run, isBlank c = true) (ht : SpelledAs a t) (h : Interleaved as rest) :
      Interleaved (a :: as) (run ++ (t ++ rest))
  | foreign {run w rest : List Char} {as : List (List Char)} (hne : run ≠ [])
      (hrun : ∀ c ∈ run, isBlank c = true) (hw : ForeignWord w) (h : Interleaved as rest) :
      Interleaved as (run ++ (w ++ rest))

namespace Interleaved

variable {as l r : List (List Char)} {tail : List Char}

theorem read_append {α : Type} {read : List Char → α} {op : α → α → α} (hread : Stretchwise read op)
    (h : Interleaved as tail) (s : List Char) : read (s ++ tail) = op (read s) (read tail) := by
  have hcut : ∀ {run : List Char}, run ≠ [] → (∀ c ∈ run, isBlank c = true) → ∀ t,
      read (s ++ (run ++ t)) = op (read s) (read (run ++ t)) := by
    intro run hne hrun t
    rw [← List.append_assoc, hread.append_run s hne hrun, hread.append_left hrun]
  cases h with
  | nil hrun =>
    have hnil : read tail = read [] := hread.append_right [] hrun
    rw [hread.append_right s hrun, hnil, hread.nil_right]
  | known hne hrun => exact hcut hne hrun _
  | foreign hne hrun => exact hcut hne hrun _

/-- What is read stretch by stretch is read of each attribute and each foreign word in turn. -/
theorem read_run_append {α : Type} {read : List Char → α} {op : α → α → α}
    (hread : Stretchwise read op) (h : Interleaved as tail) {run : List Char}
    (hrun : ∀ c ∈ run, isBlank c = true) (t : List Char) :
    read (run ++ (t ++ tail)) = op (read t) (read tail) := by
  rw [hread.append_left hrun, h.read_append hread]

theorem unmarked (h : Interleaved as tail) (has : ∀ a ∈ as, marked false a = false) :
    marked false tail = false := by
  induction h with
  | nil hrun => exact UniqueFlag.stretchwise_marked.append_right [] hrun
  | known _ hrun ht hrest ih =>
    obtain ⟨ha, has⟩ := List.forall_mem_cons.1 has
    rw [hrest.read_run_append UniqueFlag.stretchwise_marked hrun,
      ht.respaced.read_eq UniqueFlag.stretchwise_marked, ha, ih has, Bool.or_false]
  | foreign _ hrun hw hrest ih =>
    rw [hrest.read_run_append UniqueFlag.stretchwise_marked hrun, hw.unmarked, ih has, Bool.or_false]

/-- Attributes are read each on its own, and foreign words among them add nothing. -/
theorem exists_ofWords (h : Interleaved as tail) {bs : List Attribute}
    (hbs : List.Forall₂ Stands as bs) : ∃ cs, Attributes.ofWords (words tail) = ⟨cs, false⟩ ∧
      ∀ g : Field, g.withAttributes cs = g.withAttributes bs := by
  induction h generalizing bs with
  | @nil run hrun =>
    rw [List.forall₂_nil_left_iff] at hbs
    exact ⟨[], by rw [Text.words_of_all hrun]; rfl, fun g => by rw [hbs]⟩
  | known _ hrun ht hrest ih =>
    obtain ⟨b, bs, hstands, hothers, rfl⟩ := List.forall₂_cons_left_iff.1 hbs
    obtain ⟨cs, hcs, hsay⟩ := ih hothers
    refine ⟨b :: cs, ?_, fun g => ?_⟩
    · rw [hrest.read_run_append Text.stretchwise_words hrun,
        ht.respaced.read_eq Text.stretchwise_words, Attributes.ofWords, hstands,
        ← Attributes.ofWords, hcs]
      rfl
    · simp only [withAttributes, hsay]
  | foreign _ hrun hw hrest ih =>
    obtain ⟨cs, hcs, hsay⟩ := ih hbs
    obtain ⟨a, hstands, ha⟩ := hw.exists_stands
    refine ⟨a :: cs, ?_, fun g => ?_⟩
    · rw [hrest.read_run_append Text.stretchwise_words hrun, Attributes.ofWords, hstands,
        ← Attributes.ofWords, hcs]
      rfl
    · rw [withAttributes, ha]
      exact hsay g

theorem run_append (h : Interleaved as tail) {run : List Char} (hrun : ∀ c ∈ run, isBlank c = true) :
    Interleaved as (run ++ tail) := by
  have hboth : ∀ {front : List Char}, (∀ c ∈ front, isBlank c = true) →
      ∀ c ∈ run ++ front, isBlank c = true := by
    intro front hfront c hc
    rcases List.mem_append.1 hc with hc | hc
    · exact hrun c hc
    · exact hfront c hc
  cases h with
  | nil hfront => exact .nil (hboth hfront)
  | known hne hfront ht hrest =>
    rw [← List.append_assoc]
    exact .known (List.append_ne_nil_of_right_ne_nil _ hne) (hboth hfront) ht hrest
  | foreign hne hfront hw hrest =>
    rw [← List.append_assoc]
    exact .foreign (List.append_ne_nil_of_right_ne_nil _ hne) (hboth hfront) hw hrest

theorem append {front : List Char} (hl : Interleaved l front) (hr : Interleaved r tail) :
    Interleaved (l ++ r) (front ++ tail) := by
  induction hl with
  | nil hrun => exact hr.run_append hrun
  | known hne hrun ht _ ih =>
    rw [List.append_assoc, List.append_assoc]
    exact .known hne hrun ht ih
  | foreign hne hrun hw _ ih =>
    rw [List.append_assoc, List.append_assoc]
    exact .foreign hne hrun hw ih

/-- Each of the attributes stands behind white space, with the others on its two sides. -/
theorem exists_of_append_cons {a : List Char} (h : Interleaved (l ++ a :: r) tail) :
    ∃ front run t back, tail = front ++ run ++ (t ++ back) ∧ run ≠ [] ∧
      (∀ c ∈ run, isBlank c = true) ∧ SpelledAs a t ∧ Interleaved l front ∧ Interleaved r back := by
  generalize has : l ++ a :: r = as at h
  induction h generalizing l with
  | nil => simp at has
  | @known run b t rest bs hne hrun ht hrest ih =>
    cases l with
    | nil =>
      obtain ⟨rfl, rfl⟩ := List.cons.inj has
      exact ⟨[], run, t, rest, by simp, hne, hrun, ht, .nil (by simp), hrest⟩
    | cons b' l =>
      obtain ⟨rfl, hbs⟩ := List.cons.inj has
      obtain ⟨front, run', t', back, rfl, hne', hrun', ht', hl, hr⟩ := ih hbs
      exact ⟨run ++ (t ++ front), run', t', back, by simp, hne', hrun', ht',
        .known hne hrun ht hl, hr⟩
  | @foreign run w rest bs hne hrun hw hrest ih =>
    obtain ⟨front, run', t', back, rfl, hne', hrun', ht', hl, hr⟩ := ih has
    exact ⟨run ++ (w ++ front), run', t', back, by simp, hne', hrun', ht', .foreign hne hrun hw hl, hr⟩

/-- Nothing but white space follows the type directly. -/
theorem head?_ne (h : Interleaved as tail) {c : Char} (hc : isBlank c = false) :
    tail.head? ≠ some c := by
  have hfirst : ∀ {run : List Char}, (∀ d ∈ run, isBlank d = true) → run.head? ≠ some c := by
    intro run hrun hhead
    rw [hrun c (List.mem_of_head? hhead)] at hc
    cases hc
  cases h with
  | nil hrun => exact hfirst hrun
  | known hne hrun =>
    rw [List.head?_append_of_ne_nil _ hne]
    exact hfirst hrun
  | foreign hne hrun =>
    rw [List.head?_append_of_ne_nil _ hne]
    exact hfirst hrun

end Interleaved

/-! ### Reading the line -/

theorem Separable.withKey {f : Field} (h : f.Separable) (key : Bool) :
    Separable { f with isId := key } :=
  ⟨h.name, h.type, h.isArray, h.isRequired, h.unique, h.default, h.native, h.relation⟩

theorem Separable.unmarked {f : Field} (h : f.Separable) {ids : Nat} :
    ∀ t ∈ f.idTexts ids ++ f.laterTexts, marked false t = false := by
  have hplain : Separable { f with unique := none } :=
    ⟨h.name, h.type, h.isArray, h.isRequired, fun _ hu => (Option.not_mem_none _ hu).elim, h.default,
      h.native, h.relation⟩
  intro t ht
  rcases List.mem_append.1 ht with ht | ht
  · rw [idTexts] at ht
    split at ht
    · obtain rfl : t = "@id".toList := by simpa using ht
      decide
    · exact absurd ht List.not_mem_nil
  · exact hplain.legible.later rfl t ht

/-- The mark for unique values is taken out wherever it stands, and the other attributes stay. -/
theorem Separable.exists_extract {f : Field} (h : f.Separable) {ids : Nat} {as : List (List Char)}
    (has : as.Perm (f.renderAttributes ids)) {pre tail : List Char} (hpre : marked false pre = false)
    (htail : Interleaved as tail) : ∃ bs rest, extract (pre ++ tail) = (pre ++ rest, f.unique) ∧
      Interleaved bs rest ∧ bs.Perm (f.idTexts ids ++ f.laterTexts) := by
  rw [renderAttributes_eq] at has
  cases hu : f.unique with
  | none =>
    rw [hu, Option.map_none, Option.toList_none, List.append_nil] at has
    refine ⟨as, tail, ?_, htail, has⟩
    have hplain : marked false tail = false := htail.unmarked fun a ha => h.unmarked a (has.mem_iff.1 ha)
    rw [extract, UniqueFlag.extractFrom_of_marked_eq_false]
    rw [htail.read_append UniqueFlag.stretchwise_marked, hpre, hplain, Bool.or_false]
  | some u =>
    rw [hu, Option.map_some, Option.toList_some, List.append_assoc, List.singleton_append] at has
    obtain ⟨l, r, rfl⟩ := List.append_of_mem (has.mem_iff.2 (List.mem_append_right _ List.mem_cons_self))
    have hothers : (l ++ r).Perm (f.idTexts ids ++ f.laterTexts) :=
      List.Perm.cons_inv ((List.perm_middle.symm.trans has).trans List.perm_middle)
    obtain ⟨front, run, t, back, rfl, hne, hrun, ht, hl, hr⟩ := htail.exists_of_append_cons
    obtain rfl := ht.eq_render
    refine ⟨l ++ r, front ++ run ++ back, ?_, ?_, hothers⟩
    · have hfront : marked false (pre ++ front) = false := by
        rw [hl.read_append UniqueFlag.stretchwise_marked, hpre, hl.unmarked fun a ha =>
          h.unmarked a (hothers.mem_iff.1 (List.mem_append_left _ ha)), Bool.or_false]
      have hline : ∀ s, pre ++ (front ++ run ++ s) = (pre ++ front) ++ run ++ s := by simp
      rw [hline, hline, UniqueFlag.extract_append_run u hfront hne hrun (h.unique u hu)
        (hr.head?_ne (by decide))]
    · rw [List.append_assoc]
      exact hl.append (hr.run_append hrun)

theorem Separable.attributesFit {f : Field} (h : f.Separable) : f.AttributesFit := h.legible.attributes

/-- A field is read from its name, its type and its attributes in any order and spacing, foreign words
between them; it is marked as key where the mark is among the attributes. -/
theorem parse_interleaved {f : Field} (h : f.Separable) (key : Bool) {as : List (List Char)}
    (has : as.Perm (renderAttributes { f with isId := key } 1)) {lead gap tail : List Char}
    (hlead : ∀ c ∈ lead, isBlank c = true) (hgap : gap ≠ [] ∧ ∀ c ∈ gap, isBlank c = true)
    (htail : Interleaved as tail) :
    Field.parse (lead ++ f.name.toList ++ gap ++ f.type.toList ++ tail) =
      .ok (some { f with isId := key }) := by
  set g : Field := { f with isId := key } with hg
  have hsep : g.Separable := h.withKey key
  have hwords : words (lead ++ f.name.toList ++ gap ++ f.type.toList) =
      [f.name.toList, f.type.toList] := by
    rw [Text.stretchwise_words.append_run _ hgap.1 hgap.2, Text.words_append_of_all hlead,
      Text.words_of_noBlank h.name.1 h.name.2.1, Text.words_of_noBlank h.type.1 h.type.2.1]
    rfl
  have hpre : marked false (lead ++ f.name.toList ++ gap ++ f.type.toList) = false := by
    rw [UniqueFlag.stretchwise_marked.append_run _ hgap.1 hgap.2,
      UniqueFlag.stretchwise_marked.append_left hlead, hsep.legible.unmarked.1,
      hsep.legible.unmarked.2, Bool.or_false]
  obtain ⟨bs, rest, hextract, hrest, hbs⟩ := hsep.exists_extract has hpre htail
  obtain ⟨cs, hstands, hcs⟩ :=
    List.perm_comp_forall₂ hbs (stands_attributes hsep.attributesFit 1)
  obtain ⟨ds, hds, hsay⟩ := hrest.exists_ofWords hstands
  have hline : words (lead ++ f.name.toList ++ gap ++ f.type.toList ++ rest) =
      f.name.toList :: f.type.toList :: words rest := by
    rw [hrest.read_append Text.stretchwise_words, hwords]
    rfl
  rw [parse_of_words hextract hline, hds, hsay, withAttributes_of_perm hsep.attributesFit hcs,
    withAttributes_attributes hsep.attributesFit 1 ⟨rfl, rfl, rfl, rfl⟩]
  have harray := hsep.legible.isArray
  have hrequired := hsep.legible.isRequired
  simp only [hg] at harray hrequired ⊢
  simp [Except.map, ofNameAndType, harray, hrequired]

/-- A field with an attribute of each kind. -/
def parcel : Field where
  name := "parcel"
  type := "Parcel?"
  isRequired := false
  unique := some ⟨some "one each"⟩
  defaultExpr := some "f(1, 2)"
  nativeType := some "Char(2)"
  relation := some { fields := some ["day", "no"], references := some ["id", "no"] }

/-- The attributes of the field from the last to the first, with tabs, wide gaps and a remark. -/
def parcelLine : List Char :=
  "\tparcel  Parcel? @relation(fields:\t[day,  no], references: [id, no]) // as [sent] ".toList ++
    "@db.Char(2)\t\t@default(f(1,   2)) @unique(map: \"one each\") // @id@ @id ".toList

set_option maxRecDepth 2048 in
theorem parse_interleaved_parcel : parcel.Separable ∧
    Field.parse parcelLine = .ok (some { parcel with isId := true }) := by
  have hparcel : parcel.Separable := by decide +kernel
  have hspace : ∀ c ∈ [' '], isBlank c = true := by decide
  have hspaces : ∀ c ∈ [' ', ' '], isBlank c = true := by decide
  have htabs : ∀ c ∈ ['\t', '\t'], isBlank c = true := by decide
  have hrelation : SpelledAs "@relation(fields: [day, no], references: [id, no])".toList
      ("@relation(fields:".toList ++ (['\t'] ++ ("[day,".toList ++ ([' ', ' ']
        ++ "no], references: [id, no])".toList)))) := by
    rw [SpelledAs, if_pos (by decide)]
    exact .append_left "@relation(fields:".toList (.space (by simp) (by decide)
      (.append_left "[day,".toList (.space (by simp) hspaces (.refl _))))
  have hdefault : SpelledAs "@default(f(1, 2))".toList
      ("@default(f(1,".toList ++ ([' ', ' ', ' '] ++ "2))".toList)) := by
    rw [SpelledAs, if_pos (by decide)]
    exact .append_left "@default(f(1,".toList (.space (by simp) (by decide) (.refl _))
  have hforeign : ForeignWord "//".toList ∧ ForeignWord "as".toList ∧ ForeignWord "[sent]".toList ∧
      ForeignWord "@id@".toList := by decide +kernel
  obtain ⟨hslashes, has, hsent, hsigns⟩ := hforeign
  obtain ⟨as, tail, hperm, htail, htext⟩ : ∃ as tail,
      as.Perm (renderAttributes { parcel with isId := true } 1) ∧ Interleaved as tail ∧
      parcelLine = ['\t'] ++ parcel.name.toList ++ [' ', ' '] ++ parcel.type.toList ++ tail := by
    refine ⟨_, _, ?_, .known (by simp) hspace hrelation <| .foreign (by simp) hspace hslashes <|
      .foreign (by simp) hspace has <| .foreign (by simp) hspace hsent <|
      .known (by simp) hspace (.refl "@db.Char(2)".toList) <|
      .known (by simp) htabs hdefault <|
      .known (by simp) hspace (.refl "@unique(map: \"one each\")".toList) <|
      .foreign (by simp) hspace hslashes <| .foreign (by simp) hspace hsigns <|
      .known (by simp) hspace (.refl "@id".toList) <| .nil hspace, ?_⟩
    · decide +kernel
    · have hletters : parcelLine = _ ++ _ :=
        congrArg₂ (· ++ ·) String.toList_ofList String.toList_ofList
      rw [hletters]
      decide +kernel
  rw [htext]
  exact ⟨hparcel, parse_interleaved hparcel true hperm (by decide) ⟨by simp, hspaces⟩ htail⟩

end Field

end CatalogSync
