import CatalogSync.Proofs.Collect
import CatalogSync.Proofs.Schema.Parsed

/-!
What keeps the text of a schema from being read: nothing but a relation attribute with a piece that
starts with no known key, and the first such piece of the text is the one that the fault names.
Everything else that does not follow the grammar is left out of the schema, and the records that are
made pass their checks.
-/

namespace CatalogSync

open Text (trim startsWith joined lines words)
open UniqueFlag (extract)

variable {e : Fault}

/-! ### Pieces of a relation attribute -/

namespace Relation

/-- Pieces that give the text with separators between them: none of them holds a separator outside of
its brackets, and each but the last closes as many brackets as it opens. -/
structure Cut (s : List Char) (ps : List (List Char)) : Prop where
  ne_nil : ps ≠ []
  joined_eq : joined [',', ' '] ps = s
  inner : ∀ p ∈ ps, Inner 0 p
  closed : ∀ p ∈ ps.dropLast, depth p = 0

/-- A text with separators outside of all brackets has a first one. -/
theorem exists_first_separator {d : Int} {s : List Char} (h : ¬Inner d s) :
    ∃ p t, s = p ++ ',' :: ' ' :: t ∧ Inner d p ∧ d + depth p = 0 := by
  induction s generalizing d with
  | nil => exact absurd (fun x y hxy => by simp at hxy) h
  | cons c s ih =>
    by_cases hhere : d = 0 ∧ ∃ t, c :: s = ',' :: ' ' :: t
    · obtain ⟨hd, t, ht⟩ := hhere
      exact ⟨[], t, ht, fun x y hxy => by simp at hxy, by simpa using hd⟩
    · have hrest : ¬Inner (d + depthChange c) s := by
        intro hinner
        refine h fun x y hxy => ?_
        cases x with
        | nil =>
          intro hd
          exact hhere ⟨by simpa using hd, y, hxy⟩
        | cons b x =>
          obtain ⟨rfl, hs⟩ := List.cons.inj hxy
          rw [depth_cons, ← Int.add_assoc]
          exact hinner x y hs
      obtain ⟨p, t, rfl, hinner, hdepth⟩ := ih hrest
      refine ⟨c :: p, t, rfl, fun x y hxy => ?_, by rw [depth_cons]; omega⟩
      cases x with
      | nil =>
        intro hd
        refine hhere ⟨by simpa using hd, y ++ ',' :: ' ' :: t, ?_⟩
        rw [← List.cons_append, hxy]
        rfl
      | cons b x =>
        obtain ⟨rfl, hp⟩ := List.cons.inj hxy
        rw [depth_cons, ← Int.add_assoc]
        exact hinner x y hp

theorem Cut.cons {p s : List Char} {ps : List (List Char)} (hp : Inner 0 p) (hdepth : depth p = 0)
    (h : Cut s ps) : Cut (p ++ ',' :: ' ' :: s) (p :: ps) where
  ne_nil := List.cons_ne_nil p ps
  joined_eq := by rw [Text.joined_cons h.ne_nil, h.joined_eq, List.append_assoc]; rfl
  inner := List.forall_mem_cons.2 ⟨hp, h.inner⟩
  closed := by
    rw [List.dropLast_cons_of_ne_nil h.ne_nil]
    exact List.forall_mem_cons.2 ⟨hdepth, h.closed⟩

theorem cut_topLevelPieces (s : List Char) : Cut s (topLevelPieces 0 false s) := by
  by_cases h : Inner 0 s
  · have hwhole : topLevelPieces 0 false s = [s] := by
      simpa [topLevelPieces] using topLevelPieces_append h (t := []) (.inr (by simp))
    rw [hwhole]
    exact ⟨by simp, rfl, by simpa using h, by simp⟩
  · obtain ⟨p, t, hs, hp, hdepth⟩ := exists_first_separator h
    have hshorter : t.length < s.length := by
      rw [hs, List.length_append, List.length_cons, List.length_cons]
      omega
    rw [Int.zero_add] at hdepth
    have hrest : topLevelPieces 0 false s = p :: topLevelPieces 0 false t := by
      rw [hs, topLevelPieces_append hp (.inr (by simp)), hdepth, Int.add_zero,
        topLevelPieces_separator, List.modifyHead_cons, List.append_nil]
    rw [hrest, hs]
    exact (cut_topLevelPieces t).cons hp hdepth
termination_by s.length

theorem cut_iff {s : List Char} {ps : List (List Char)} :
    Cut s ps ↔ ps = topLevelPieces 0 false s := by
  constructor
  · intro h
    rw [← h.joined_eq, topLevelPieces_joined h.ne_nil h.inner h.closed]
  · rintro rfl
    exact cut_topLevelPieces s

/-- The fault of a piece that is not blank and starts with the word of no key. -/
def PieceFault (whole piece : List Char) (e : Fault) : Prop :=
  trim piece ≠ [] ∧ (∀ key : PartKey, startsWith key.word.toList (trim piece) = false) ∧
    e = .unknownRelationKey (String.ofList (trim piece)) (String.ofList whole)

theorem keyOf?_eq_none_iff {piece : List Char} :
    keyOf? piece = none ↔ ∀ key : PartKey, startsWith key.word.toList piece = false := by
  have hall : ∀ key : PartKey, key ∈ PartKey.all := by
    intro key
    cases key <;> simp [PartKey.all]
  simp only [keyOf?, List.findSome?_eq_none_iff, Option.map_eq_none_iff, Text.after?_eq_none_iff]
  exact ⟨fun h key => h key (hall key), fun h key _ => h key⟩

/-- Pieces are refused where one of them starts with no key; the first one counts. -/
theorem addPieces_eq_error_iff {whole : List Char} {r : Relation} {ps : List (List Char)} :
    addPieces whole r (trimmedPieces ps) = .error e ↔ First (PieceFault whole) ps e := by
  induction ps generalizing r with
  | nil =>
    refine iff_of_false (fun h => ?_) not_first_nil
    cases h
  | cons p ps ih =>
    by_cases hp : trim p = []
    · have hpieces : trimmedPieces (p :: ps) = trimmedPieces ps := by simp [trimmedPieces, hp]
      rw [hpieces, ih, first_cons_of_not fun d hd => hd.1 hp]
    · have hpieces : trimmedPieces (p :: ps) = trim p :: trimmedPieces ps := by
        simp [trimmedPieces, hp]
      rw [hpieces, addPieces]
      cases hkey : keyOf? (trim p) with
      | none =>
        have hfault := keyOf?_eq_none_iff.1 hkey
        rw [first_cons_iff]
        refine ⟨fun h => .inl ⟨hp, hfault, (Except.error.inj h).symm⟩, ?_⟩
        rintro (⟨-, -, rfl⟩ | ⟨hnone, -⟩)
        · rfl
        · exact absurd ⟨hp, hfault, rfl⟩ (hnone _)
      | some found =>
        have hnone : ∀ d, ¬PieceFault whole p d := by
          rintro d ⟨-, hfault, -⟩
          rw [keyOf?_eq_none_iff.2 hfault] at hkey
          cases hkey
        rw [first_cons_of_not hnone]
        exact ih

/-- A relation attribute is refused for the first of its pieces that starts with no key. -/
theorem parse_eq_error_iff {whole : List Char} : Relation.parse whole = .error e ↔
    ∃ ps, Cut (body whole) ps ∧ First (PieceFault whole) ps e := by
  simp only [Relation.parse, splitTopLevel, addPieces_eq_error_iff, cut_iff, exists_eq_left]

end Relation

/-! ### Groups of words -/

namespace Attributes

/-- Words that are joined to one attribute: the first of them opens a bracket, and all brackets are
closed for the first time behind the last one. -/
structure IsGroup (run : List (List Char)) : Prop where
  opens : ∃ w ∈ run.head?, w.any isOpener = true
  closes : Balance.ClosesAfter {} run

/-- The groups of words in their order. Words without opening brackets may stand around them, and
behind the last one words whose brackets are never closed. -/
inductive Groups : List (List Char) → List (List (List Char)) → Prop
  | nil : Groups [] []
  | bare {w : List Char} {ws : List (List Char)} {groups : List (List (List Char))}
      (closed : w.any isOpener = false) (rest : Groups ws groups) : Groups (w :: ws) groups
  | group {run ws : List (List Char)} {groups : List (List (List Char))} (first : IsGroup run)
      (rest : Groups ws groups) : Groups (run ++ ws) (run :: groups)
  | unfinished {ws : List (List Char)} (opens : ∃ w ∈ ws.head?, w.any isOpener = true)
      (never : ∀ run, run <+: ws → ¬Balance.ClosesAfter {} run) : Groups ws []

theorem exists_groups (ws : List (List Char)) : ∃ groups, Groups ws groups := by
  cases ws with
  | nil => exact ⟨[], .nil⟩
  | cons w ws =>
    cases hw : w.any isOpener with
    | false =>
      obtain ⟨groups, hgroups⟩ := exists_groups ws
      exact ⟨groups, .bare hw hgroups⟩
    | true =>
      by_cases hclose : ∃ run, run <+: w :: ws ∧ Balance.ClosesAfter {} run
      · obtain ⟨run, ⟨rest, hsplit⟩, hrun⟩ := hclose
        cases run with
        | nil => exact hrun.elim
        | cons v run =>
          obtain ⟨rfl, hws⟩ := List.cons.inj hsplit
          have hshorter : rest.length < ws.length + 1 := by
            rw [← hws, List.append_eq, List.length_append]
            omega
          obtain ⟨groups, hgroups⟩ := exists_groups rest
          rw [← hsplit]
          exact ⟨_, .group ⟨⟨v, rfl, hw⟩, hrun⟩ hgroups⟩
      · exact ⟨[], .unfinished ⟨w, rfl, hw⟩ fun run hrun hcloses => hclose ⟨run, hrun, hcloses⟩⟩
termination_by ws.length

/-- Words whose brackets are never closed give no attribute. -/
theorem closed_collect_of_never {pending ws : List (List Char)} {b : Balance}
    (hopen : pending ≠ [] ∨ ∃ w ∈ ws.head?, w.any isOpener = true)
    (hnever : ∀ run, run <+: ws → ¬b.ClosesAfter run) : (collect pending b ws).closed = [] := by
  induction ws generalizing pending b with
  | nil => rfl
  | cons w ws ih =>
    have hjoin : ¬(pending.isEmpty = true ∧ (!w.any isOpener) = true) := by
      rintro ⟨hp, hw⟩
      rcases hopen with hopen | ⟨v, hv, hany⟩
      · exact hopen (by simpa using hp)
      · obtain rfl : w = v := by simpa using hv
        rw [hany] at hw
        cases hw
    have hgo : (b.add w).isEven = false := Bool.eq_false_iff.2 fun heven =>
      hnever [w] ⟨ws, rfl⟩ heven
    rw [collect, if_neg hjoin]
    simp only [hgo, Bool.false_eq_true, if_false]
    refine ih (.inl (by simp)) fun run hrun hcloses => ?_
    have hne : run ≠ [] := by
      rintro rfl
      exact hcloses
    exact hnever (w :: run) (List.cons_prefix_cons.2 ⟨rfl, hrun⟩)
      ((Balance.closesAfter_cons hne).2 ⟨hgo, hcloses⟩)

/-- The fault of a group that is a relation attribute. -/
def GroupFault (run : List (List Char)) (e : Fault) : Prop :=
  startsWith "@relation".toList (joined [' '] run) = true ∧
    ∃ ps, Relation.Cut (Relation.body (joined [' '] run)) ps ∧
      First (Relation.PieceFault (joined [' '] run)) ps e

end Attributes

/-! ### Field lines -/

namespace Field

theorem kindOf_eq_relation_iff {text : List Char} :
    kindOf text = .relation ↔ startsWith "@relation".toList text = true := by
  refine ⟨startsWith_of_kindOf, fun h => ?_⟩
  have hnative : Text.after? "@db.".toList text = none := by
    obtain ⟨rest, rfl⟩ := Text.startsWith_iff.1 h
    rfl
  rw [kindOf, hnative]
  exact if_pos h

/-- The fault of an attribute: only one of a relation has any. -/
def AttributeFault (a : Attribute) (e : Fault) : Prop :=
  ∃ text, a = .bracketed text ∧ startsWith "@relation".toList text = true ∧
    Relation.parse text = .error e

theorem withAttribute_eq_error_iff {f : Field} {a : Attribute} :
    f.withAttribute a = .error e ↔ AttributeFault a e := by
  cases a with
  | bare word =>
    refine iff_of_false (fun h => ?_) fun ⟨text, h, _⟩ => by cases h
    rw [withAttribute] at h
    split at h
    · cases h
    · split at h <;> cases h
  | bracketed text =>
    simp only [AttributeFault, Attribute.bracketed.injEq, exists_eq_left', ← kindOf_eq_relation_iff,
      withAttribute]
    cases kindOf text with
    | relation => cases Relation.parse text <;> simp [Except.map]
    | native type => simp
    | default expr => simp
    | other => simp

theorem withAttributes_eq_error_iff {f : Field} {as : List Attribute} :
    f.withAttributes as = .error e ↔ First AttributeFault as e := by
  induction as generalizing f with
  | nil =>
    refine iff_of_false (fun h => ?_) not_first_nil
    cases h
  | cons a as ih =>
    have hrun : f.withAttributes (a :: as) = (f.withAttribute a).bind (·.withAttributes as) := by
      rw [withAttributes]
      cases f.withAttribute a <;> rfl
    rw [hrun]
    exact bind_eq_error_iff_first_cons (fun d => withAttribute_eq_error_iff) fun g => ih

/-- The first fault of the attributes that words make up is the first one of their groups. -/
theorem first_closed_iff {ws : List (List Char)} {groups : List (List (List Char))}
    (h : Attributes.Groups ws groups) : First AttributeFault (Attributes.ofWords ws).closed e ↔
      First Attributes.GroupFault groups e := by
  induction h with
  | nil => exact iff_of_false not_first_nil not_first_nil
  | @bare w ws groups hw rest ih =>
    have hcollect : (Attributes.ofWords (w :: ws)).closed =
        .bare w :: (Attributes.ofWords ws).closed := by
      rw [Attributes.ofWords, Attributes.collect, if_pos (by simp [hw])]
      rfl
    have hnone : ∀ d, ¬AttributeFault (.bare w) d := by
      rintro d ⟨text, htext, -⟩
      cases htext
    rw [hcollect, first_cons_of_not hnone, ih]
  | @group run ws groups hrun rest ih =>
    have hcollect : (Attributes.ofWords (run ++ ws)).closed =
        .bracketed (joined [' '] run) :: (Attributes.ofWords ws).closed := by
      rw [Attributes.ofWords, Attributes.collect_append hrun.closes (.inr fun w hw => ?_)]
      · rfl
      · obtain ⟨v, hv, hopen⟩ := hrun.opens
        rw [hw] at hv
        exact Option.some.inj hv ▸ hopen
    have hgroup : ∀ d, AttributeFault (.bracketed (joined [' '] run)) d ↔
        Attributes.GroupFault run d := by
      intro d
      simp only [AttributeFault, Attribute.bracketed.injEq, exists_eq_left', Attributes.GroupFault,
        Relation.parse_eq_error_iff]
    simp only [hcollect, first_cons_iff, hgroup, ih]
  | @unfinished ws hopen hnever =>
    rw [Attributes.ofWords, Attributes.closed_collect_of_never (.inr hopen) hnever]
    exact iff_of_false not_first_nil not_first_nil

/-- The fault of a line: behind its first two words stands a group that is a relation attribute with a
piece that starts with no key. The mark for unique values is taken out first. -/
def LineFault (line : List Char) (e : Fault) : Prop :=
  ∃ name type ws groups, words (extract line).1 = name :: type :: ws ∧
    Attributes.Groups ws groups ∧ First Attributes.GroupFault groups e

theorem parse_eq_error_iff {line : List Char} : Field.parse line = .error e ↔ LineFault line e := by
  obtain ⟨rest, unique, hextract⟩ : ∃ rest unique, extract line = (rest, unique) := ⟨_, _, rfl⟩
  rw [LineFault, hextract]
  rcases hwords : words rest with _ | ⟨name, _ | ⟨type, ws⟩⟩
  · rw [Field.parse, hextract]
    simp [hwords]
  · rw [Field.parse, hextract]
    simp [hwords]
  · have hparse : Field.parse line = .error e ↔
        First AttributeFault (Attributes.ofWords ws).closed e := by
      rw [parse_of_words hextract hwords, ← withAttributes_eq_error_iff]
      cases (ofNameAndType name type unique).withAttributes (Attributes.ofWords ws).closed <;>
        simp [Except.map]
    rw [hparse]
    constructor
    · intro h
      obtain ⟨groups, hgroups⟩ := Attributes.exists_groups ws
      exact ⟨name, type, ws, groups, rfl, hgroups, (first_closed_iff hgroups).1 h⟩
    · rintro ⟨name', type', ws', groups, hsame, hgroups, h⟩
      obtain ⟨-, hsame⟩ := List.cons.inj hsame
      obtain ⟨-, rfl⟩ := List.cons.inj hsame
      exact (first_closed_iff hgroups).2 h

end Field

/-! ### The lines of a text -/

namespace Model

/-- A line that is neither blank nor a comment nor a lone brace nor a directive. -/
def IsFieldLine (line : List Char) : Prop :=
  trim line ≠ [] ∧ startsWith ['/', '/'] (trim line) = false ∧ trim line ≠ ['}'] ∧
    startsWith ['@', '@'] (trim line) = false

theorem bodyLine_eq_field_iff {line : List Char} : bodyLine line = .field line ↔ IsFieldLine line := by
  rw [bodyLine, IsFieldLine]
  split
  next h =>
    refine iff_of_false (by simp) ?_
    rintro ⟨hblank, hcomment, hbrace, -⟩
    simp [hblank, hcomment, hbrace] at h
  next h =>
    simp only [not_or, Bool.not_eq_true] at h
    cases startsWith ['@', '@'] (trim line) <;> simp [h]

theorem addBody_eq_error_iff {m : Model} {ls : List (List Char)} : addBody m ls = .error e ↔
    First Field.LineFault (ls.filter fun line => bodyLine line = .field line) e := by
  induction ls generalizing m with
  | nil =>
    refine iff_of_false (fun h => ?_) not_first_nil
    cases h
  | cons line ls ih =>
    cases hline : bodyLine line with
    | skipped =>
      rw [addBody, hline, List.filter_cons_of_neg (by simp [hline])]
      exact ih
    | directive text =>
      rw [addBody, hline, List.filter_cons_of_neg (by simp [hline])]
      exact ih
    | field l =>
      obtain rfl : l = line := bodyLine_eq_self hline
      have hrun : addBody m (l :: ls) = (Field.parse l).bind fun found =>
          addBody { m with fields := m.fields ++ found.toList } ls := by
        rw [addBody, hline]
        dsimp only
        cases Field.parse l with
        | error d => rfl
        | ok found => cases found <;> simp [Except.bind]
      rw [hrun, List.filter_cons_of_pos (by simp [hline])]
      exact bind_eq_error_iff_first_cons (fun d => Field.parse_eq_error_iff) fun found => ih

theorem parse_eq_error_iff {fragment : List Char} :
    Model.parse fragment = .error e ↔ First Field.LineFault (fieldLines fragment) e := by
  cases hsplit : split? fragment with
  | none =>
    rw [Model.parse, fieldLines, hsplit]
    exact iff_of_false (fun h => by cases h) not_first_nil
  | some found =>
    obtain ⟨name, body⟩ := found
    rw [parse_of_split hsplit, fieldLines, hsplit, ← addBody_eq_error_iff]
    cases addBody { name := String.ofList name } (lines body) <;> simp [Except.map]

end Model

namespace Schema

/-- The field lines of all models of a text, in their order. -/
def fieldLines (s : List Char) : List (List Char) :=
  (fragments (Section.linesOf .models (lines s))).flatMap Model.fieldLines

theorem parseModels_eq_error_iff {texts : List (List Char)} : parseModels texts = .error e ↔
    First Field.LineFault (texts.flatMap Model.fieldLines) e := by
  induction texts with
  | nil =>
    refine iff_of_false (fun h => ?_) not_first_nil
    cases h
  | cons fragment texts ih =>
    rw [parseModels_cons, List.flatMap_cons]
    refine bind_eq_error_iff_first (fun d => Model.parse_eq_error_iff) fun m => ?_
    rw [← ih]
    cases parseModels texts <;> simp [Except.map]

/-- The text of a schema is refused for the first fault of its field lines. -/
theorem parse_eq_error_iff {s : List Char} :
    Schema.parse s = .error e ↔ First Field.LineFault (fieldLines s) e := by
  rw [fieldLines, ← parseModels_eq_error_iff, Schema.parse]
  cases parseModels (fragments (Section.linesOf .models (lines s))) <;> simp

theorem mem_fieldLines_iff {s line : List Char} : line ∈ fieldLines s ↔
    ∃ fragment ∈ fragments (Section.linesOf .models (lines s)), ∃ header body,
      Text.cutAt? '{' fragment = some (header, body) ∧ trim header ≠ [] ∧ line ∈ lines body ∧
        Model.IsFieldLine line := by
  rw [fieldLines, List.mem_flatMap]
  refine exists_congr fun fragment => and_congr_right fun _ => ?_
  rw [Model.fieldLines, Model.split?]
  cases Text.cutAt? '{' fragment with
  | none => simp
  | some found =>
    obtain ⟨header, body⟩ := found
    by_cases hheader : trim header = []
    · simp [hheader]
    · simp [hheader, Model.bodyLine_eq_field_iff]

/-- A text of which no schema can be read has a relation attribute that cannot be read. -/
theorem isRelationFault_of_parse {s : List Char} (h : Schema.parse s = .error e) :
    e.isRelationFault := by
  obtain ⟨-, line, -, -, ⟨-, -, -, groups, -, -, hgroups⟩, -⟩ := parse_eq_error_iff.1 h
  obtain ⟨-, run, -, -, ⟨-, pieces, -, hpieces⟩, -⟩ := hgroups
  obtain ⟨-, piece, -, -, ⟨-, -, rfl⟩, -⟩ := hpieces
  rfl

/-- A text is refused exactly where a field line of a model with a name holds, behind its first two words,
a relation attribute with a piece that starts with no key. The first such piece of the text is the one that
the fault names. Every other text is read: no check of a record fails. -/
theorem parse_refused_iff_lineFault (s : List Char) :
    (∀ e, Schema.parse s = .error e ↔ First Field.LineFault (fieldLines s) e) ∧
      ((∃ piece whole, Schema.parse s = .error (.unknownRelationKey piece whole)) ↔
        ∃ fragment ∈ fragments (Section.linesOf .models (lines s)), ∃ header body,
          Text.cutAt? '{' fragment = some (header, body) ∧ trim header ≠ [] ∧
            ∃ line ∈ lines body, Model.IsFieldLine line ∧ ∃ e, Field.LineFault line e) ∧
      ((∃ schema, Schema.parse s = .ok schema) ↔
        ∀ line ∈ fieldLines s, ∀ e, ¬Field.LineFault line e) := by
  have hrefused : (∃ e, Schema.parse s = .error e) ↔
      ∃ line ∈ fieldLines s, ∃ e, Field.LineFault line e := by
    simp only [parse_eq_error_iff, exists_first_iff]
  refine ⟨fun e => parse_eq_error_iff, ?_, ?_⟩
  · have hnamed : (∃ piece whole, Schema.parse s = .error (.unknownRelationKey piece whole)) ↔
        ∃ e, Schema.parse s = .error e := by
      refine ⟨fun ⟨piece, whole, h⟩ => ⟨_, h⟩, fun ⟨e, h⟩ => ?_⟩
      have hrelation := isRelationFault_of_parse h
      cases e <;> first | exact ⟨_, _, h⟩ | cases hrelation
    rw [hnamed, hrefused]
    simp only [mem_fieldLines_iff]
    constructor
    · rintro ⟨line, ⟨fragment, hmem, header, body, hcut, hname, hline, hfield⟩, e, he⟩
      exact ⟨fragment, hmem, header, body, hcut, hname, line, hline, hfield, e, he⟩
    · rintro ⟨fragment, hmem, header, body, hcut, hname, line, hline, hfield, e, he⟩
      exact ⟨line, ⟨fragment, hmem, header, body, hcut, hname, hline, hfield⟩, e, he⟩
  · have hread : (∃ schema, Schema.parse s = .ok schema) ↔ ¬∃ e, Schema.parse s = .error e := by
      cases Schema.parse s <;> simp
    rw [hread, hrefused]
    simp only [not_exists, not_and]

/-- The line that leaves a brace open gives no field, but the relation in front of the brace counts. -/
example : Schema.parse "model Loan \x7b
  // by: nobody
  reader Reader @relation(fields: [readerId], by: [id], to: x) @default(\x7b
  copy Copy @relation(name: y)
\x7d
".toList = .error (.unknownRelationKey "by: [id]"
    "@relation(fields: [readerId], by: [id], to: x)") := by
  decide +kernel

end Schema

end CatalogSync
