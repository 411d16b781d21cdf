import CatalogSync.Proofs.InOrder
import CatalogSync.Proofs.Schema.KeyNames
import Mathlib.Data.Finset.Card
import Mathlib.Data.Finset.Dedup

/-!
What the checks of a schema find. `Schema.Finds` says for each place what a check finds there: its number, that
of the model, that of the field or directive, and that of what is looked at there. The issues of a schema are
all that is found, each once and in the order of the places; so their numbers are those of the names that are
given again, of the models without fields and of the relations that name or lead to nothing, and the schema is
valid where no name is given twice and the key directives name fields.
-/

namespace CatalogSync

open Text (after? cutAt? splitOn trim)

/-! ### The first list of a directive -/

/-- A key directive stands at the start of the text, with this list between its brackets. -/
structure KeyListHere (s list : List Char) : Prop where
  closed : ']' ∉ list
  starts : "@@id([".toList ++ list ++ "])".toList <+: s

/-- The list of the first key directive in the text. -/
def FirstKeyList (s list : List Char) : Prop :=
  ∃ before rest, s = before ++ rest ∧ KeyListHere rest list ∧
    ∀ b r l, s = b ++ r → KeyListHere r l → before.length ≤ b.length

theorem idNamesHere?_eq_some_iff {s list : List Char} :
    idNamesHere? s = some list ↔ KeyListHere s list := by
  constructor
  · intro h
    refine ⟨not_mem_of_idNamesHere? h, ?_⟩
    obtain ⟨rest, hrest, h⟩ := Option.bind_eq_some_iff.1 h
    obtain ⟨⟨cut, after⟩, hcut, h⟩ := Option.bind_eq_some_iff.1 h
    obtain ⟨last, hlast, h⟩ := Option.bind_eq_some_iff.1 h
    obtain rfl : cut = list := Option.some.inj h
    refine ⟨last, ?_⟩
    rw [Text.after?_eq_some_iff.1 hrest, (Text.cutAt?_eq_some hcut).1, Text.after?_eq_some_iff.1 hlast]
    simp
  · rintro ⟨hclosed, rest, rfl⟩
    have hcut : cutAt? ']' (list ++ ("])".toList ++ rest)) = some (list, ')' :: rest) :=
      Text.cutAt?_append hclosed _
    rw [idNamesHere?, List.append_assoc, List.append_assoc, Text.after?_append, Option.bind_eq_bind,
      Option.bind_some, hcut]
    rfl

/-- Reading a directive finds the list of the first key directive in it. -/
theorem idNames?_eq_some_iff {s list : List Char} : idNames? s = some list ↔ FirstKeyList s list := by
  induction s with
  | nil =>
    constructor
    · rintro ⟨⟩
    · rintro ⟨before, rest, hsplit, hhere, -⟩
      obtain ⟨-, rfl⟩ := List.append_eq_nil_iff.1 hsplit.symm
      have := hhere.starts.length_le
      simp at this
  | cons c s ih =>
    rw [idNames?, Option.or_eq_some_iff, idNamesHere?_eq_some_iff, ih]
    constructor
    · rintro (hhere | ⟨hnone, before, rest, rfl, hhere, hfirst⟩)
      · exact ⟨[], c :: s, rfl, hhere, fun _ _ _ _ _ => Nat.zero_le _⟩
      · refine ⟨c :: before, rest, rfl, hhere, fun b r l hsplit hl => ?_⟩
        cases b with
        | nil =>
          obtain rfl : _ = r := hsplit
          rw [idNamesHere?_eq_some_iff.2 hl] at hnone
          cases hnone
        | cons d b =>
          obtain ⟨-, hsplit⟩ := List.cons.inj hsplit
          exact Nat.succ_le_succ (hfirst b r l hsplit hl)
    · rintro ⟨before, rest, hsplit, hhere, hfirst⟩
      cases before with
      | nil =>
        obtain rfl : _ = rest := hsplit
        exact .inl hhere
      | cons d before =>
        obtain ⟨rfl, rfl⟩ := List.cons.inj hsplit
        refine .inr ⟨?_, before, rest, rfl, hhere, fun b r l hsplit hl => ?_⟩
        · cases hnone : idNamesHere? (c :: (before ++ rest)) with
          | none => rfl
          | some l =>
            have := hfirst [] _ l rfl (idNamesHere?_eq_some_iff.1 hnone)
            cases this
        · exact Nat.le_of_succ_le_succ (hfirst (c :: b) r l (by rw [hsplit]; rfl) hl)

/-! ### What there is to find -/

/-- The relation names neither columns nor a constraint: each part is absent or empty. -/
structure Relation.NamesNothing (r : Relation) : Prop where
  fields : r.fields = none ∨ r.fields = some []
  references : r.references = none ∨ r.references = some []
  mapName : r.mapName = none ∨ r.mapName = some ""

theorem Relation.isMeaningful_eq_false_iff {r : Relation} : r.isMeaningful = false ↔ r.NamesNothing := by
  obtain ⟨mapName, fields, references, onUpdate, onDelete⟩ := r
  have hlist : ∀ l : Option (List String), (l.getD []).isEmpty = true ↔ l = none ∨ l = some [] := by
    intro l
    cases l <;> simp
  have htext : mapName.getD "" = "" ↔ mapName = none ∨ mapName = some "" := by
    cases mapName <;> simp
  rw [isMeaningful]
  simp only [Bool.or_eq_false_iff, Bool.not_eq_false', hlist, ne_eq, decide_eq_false_iff_not, not_not,
    htext]
  exact ⟨fun ⟨⟨hf, hr⟩, hm⟩ => ⟨hf, hr, hm⟩, fun ⟨hf, hr, hm⟩ => ⟨⟨hf, hr⟩, hm⟩⟩

instance : DecidablePred Relation.NamesNothing :=
  fun _ => decidable_of_iff _ Relation.isMeaningful_eq_false_iff

namespace Schema

/-- What the checks find at a place. The numbers of a place are those of the check and of the model, then, where
the check looks further, that of the field or the directive, and that of what is looked at there: of the two
questions about a relation, or of the piece between commas. -/
inductive Finds (s : Schema) : List Nat → Issue → Prop
  | duplicateModelName {i : Nat} {m : Model} (hm : s.models[i]? = some m)
      (h : m.name ∈ (s.models.take i).map (·.name)) : Finds s [0, i] (.duplicateModelName m.name)
  | duplicateFieldName {i j : Nat} {m : Model} {f : Field} (hm : s.models[i]? = some m)
      (hf : m.fields[j]? = some f) (h : f.name ∈ (m.fields.take j).map (·.name)) :
      Finds s [1, i, j] (.duplicateFieldName m.name f.name)
  | emptyModel {i : Nat} {m : Model} (hm : s.models[i]? = some m) (h : m.fields = []) :
      Finds s [2, i] (.emptyModel m.name)
  | emptyRelation {i j : Nat} {m : Model} {f : Field} {r : Relation} (hm : s.models[i]? = some m)
      (hf : m.fields[j]? = some f) (hr : f.relation = some r) (h : r.NamesNothing) :
      Finds s [3, i, j, 0] (.emptyRelation m.name f.name)
  | unknownRelationTarget {i j : Nat} {m : Model} {f : Field} {r : Relation}
      (hm : s.models[i]? = some m) (hf : m.fields[j]? = some f) (hr : f.relation = some r)
      (h : ∀ target ∈ s.models, target.name ≠ relationTarget f.type) :
      Finds s [3, i, j, 1] (.unknownRelationTarget m.name f.name (relationTarget f.type))
  | unknownIdField {i j k : Nat} {m : Model} {d : String} {list piece : List Char} {name : String}
      (hm : s.models[i]? = some m) (hd : m.directives[j]? = some d)
      (hlist : FirstKeyList d.toList list) (hpiece : (splitOn [','] list)[k]? = some piece)
      (hname : name.toList = trim piece) (hne : name ≠ "") (h : ∀ f ∈ m.fields, f.name ≠ name) :
      Finds s [4, i, j, k] (.unknownIdField m.name name)

end Schema

/-! ### Names that come again -/

/-- The name at a place stood before: in front of the list or earlier in it. -/
def StoodBefore (seen names : List String) (p : List Nat) (name : String) : Prop :=
  ∃ i, p = [i] ∧ names[i]? = some name ∧ (name ∈ seen ∨ name ∈ names.take i)

theorem stoodBefore_next_iff {seen names : List String} {name a : String} {p : List Nat} :
    StoodBefore seen (name :: names) (InOrder.next p) a ↔ StoodBefore (name :: seen) names p a := by
  constructor
  · rintro ⟨i, hp, ha, hseen⟩
    match p with
    | [] => cases hp
    | j :: q =>
      obtain ⟨rfl, rfl⟩ := List.cons.inj hp
      refine ⟨j, rfl, ha, ?_⟩
      simp only [List.take_succ_cons, List.mem_cons] at hseen ⊢
      tauto
  · rintro ⟨i, rfl, ha, hseen⟩
    refine ⟨i + 1, rfl, ha, ?_⟩
    simp only [List.take_succ_cons, List.mem_cons] at hseen ⊢
    tauto

theorem inOrder_repeats (seen names : List String) :
    InOrder (StoodBefore seen names) (repeats seen names) := by
  induction names generalizing seen with
  | nil =>
    refine .nil ?_
    rintro p name ⟨i, -, hname, -⟩
    cases hname
  | cons name names ih =>
    have hcons : repeats seen (name :: names) =
        (if name ∈ seen then [name] else []) ++ repeats (name :: seen) names := by
      rw [repeats]
      split <;> rfl
    rw [hcons]
    refine .append ?_ ((InOrder.ite (name ∈ seen) name).congr fun p a => ?_)
      ((ih (name :: seen)).congr fun p a => stoodBefore_next_iff.symm)
    · rintro a ⟨i, hp, -⟩
      cases hp
    · constructor
      · rintro ⟨rfl, hseen, rfl⟩
        exact ⟨0, rfl, rfl, .inl hseen⟩
      · rintro ⟨i, hp, ha, hseen⟩
        obtain ⟨rfl, rfl⟩ := List.cons.inj hp
        obtain rfl : name = a := Option.some.inj ha
        exact ⟨rfl, hseen.resolve_right List.not_mem_nil, rfl⟩

/-- A list of names holds as many that come again as it has more names than different ones. -/
theorem length_repeats_add_card (seen names : List String) :
    (repeats seen names).length + (names.toFinset \ seen.toFinset).card = names.length := by
  induction names generalizing seen with
  | nil => simp [repeats]
  | cons name names ih =>
    have hstep := ih (name :: seen)
    rw [List.toFinset_cons] at hstep
    rw [repeats, List.toFinset_cons]
    by_cases hseen : name ∈ seen
    · have hmem : name ∈ seen.toFinset := List.mem_toFinset.2 hseen
      rw [Finset.insert_eq_of_mem hmem] at hstep
      rw [if_pos hseen, Finset.insert_sdiff_of_mem _ hmem, List.length_cons, List.length_cons]
      omega
    · have hmem : name ∉ seen.toFinset := fun h => hseen (List.mem_toFinset.1 h)
      have hinsert : insert name names.toFinset \ seen.toFinset =
          insert name (names.toFinset \ insert name seen.toFinset) := by
        ext a
        by_cases ha : a = name <;> simp [ha, hseen]
      rw [if_neg hseen, hinsert, Finset.card_insert_of_notMem (by simp), List.length_cons]
      omega

theorem length_repeats (names : List String) :
    (repeats [] names).length = names.length - names.toFinset.card := by
  have h := length_repeats_add_card [] names
  rw [List.toFinset_nil, Finset.sdiff_empty] at h
  omega

/-- Names are different where each did not stand before. -/
theorem nodup_map_iff {α : Type} (name : α → String) (l : List α) :
    (l.map name).Nodup ↔ ∀ i a, l[i]? = some a → name a ∉ (l.take i).map name := by
  rw [List.Nodup, List.pairwise_map, List.pairwise_iff_getElem]
  constructor
  · intro h i a ha hmem
    obtain ⟨hi, rfl⟩ := List.getElem?_eq_some_iff.1 ha
    obtain ⟨b, hb, heq⟩ := List.mem_map.1 hmem
    obtain ⟨j, hj, rfl⟩ := List.mem_take_iff_getElem.1 hb
    exact h j i (by omega) hi (by omega) heq
  · intro h i j hi hj hlt heq
    refine h j _ (List.getElem?_eq_getElem hj) (List.mem_map.2 ⟨l[i], ?_, heq⟩)
    exact List.mem_take_iff_getElem.2 ⟨i, by omega, rfl⟩

theorem sum_map_ite_one {α : Type} (p : α → Prop) [DecidablePred p] (l : List α) :
    (l.map fun a => if p a then 1 else 0).sum = l.countP p := by
  induction l with
  | nil => rfl
  | cons a l ih =>
    rw [List.map_cons, List.sum_cons, ih, List.countP_cons, Nat.add_comm]
    simp only [decide_eq_true_eq]

namespace Schema

variable {s : Schema}

/-! ### The order of the issues -/

theorem inOrder_modelNameIssues : InOrder (fun p => s.Finds (0 :: p)) s.modelNameIssues := by
  refine ((inOrder_repeats [] s.modelNames).map Issue.duplicateModelName).congr fun p issue => ?_
  constructor
  · rintro ⟨name, ⟨i, rfl, hname, hseen⟩, rfl⟩
    rw [modelNames, List.getElem?_map, Option.map_eq_some_iff] at hname
    obtain ⟨m, hm, rfl⟩ := hname
    rw [modelNames, ← List.map_take] at hseen
    exact .duplicateModelName hm (hseen.resolve_left List.not_mem_nil)
  · rintro (⟨hm, hseen⟩)
    refine ⟨_, ⟨_, rfl, ?_, .inr ?_⟩, rfl⟩
    · rw [modelNames, List.getElem?_map, hm]
      rfl
    · rw [modelNames, ← List.map_take]
      exact hseen

theorem inOrder_fieldNameIssues : InOrder (fun p => s.Finds (1 :: p)) s.fieldNameIssues := by
  refine .flatMap ?_ ?_ fun i m hm => ?_
  · rintro issue ⟨⟩
  · rintro i p issue (_ | ⟨hm, -, -⟩)
    exact (List.getElem?_eq_some_iff.1 hm).1
  · refine ((inOrder_repeats [] (m.fields.map (·.name))).map (Issue.duplicateFieldName m.name)).congr
      fun p issue => ?_
    constructor
    · rintro ⟨name, ⟨j, rfl, hname, hseen⟩, rfl⟩
      rw [List.getElem?_map, Option.map_eq_some_iff] at hname
      obtain ⟨f, hf, rfl⟩ := hname
      rw [← List.map_take] at hseen
      exact .duplicateFieldName hm hf (hseen.resolve_left List.not_mem_nil)
    · rintro (_ | ⟨hm', hf, hseen⟩)
      obtain rfl := Option.some.inj (hm.symm.trans hm')
      refine ⟨_, ⟨_, rfl, ?_, .inr ?_⟩, rfl⟩
      · rw [List.getElem?_map, hf]
        rfl
      · rw [← List.map_take]
        exact hseen

theorem inOrder_emptyModelIssues : InOrder (fun p => s.Finds (2 :: p)) s.emptyModelIssues := by
  refine (InOrder.map_filter _ _ s.models).congr fun p issue => ?_
  constructor
  · rintro ⟨i, m, rfl, hm, hempty, rfl⟩
    exact .emptyModel hm (List.isEmpty_iff.1 hempty)
  · rintro (_ | _ | ⟨hm, hempty⟩)
    exact ⟨_, _, rfl, hm, List.isEmpty_iff.2 hempty, rfl⟩

/-- The two questions about a relation are asked one after the other. -/
theorem inOrder_relationIssuesOf {i j : Nat} {m : Model} {f : Field} (hm : s.models[i]? = some m)
    (hf : m.fields[j]? = some f) :
    InOrder (fun p => s.Finds (3 :: i :: j :: p)) (s.relationIssuesOf m f) := by
  rw [relationIssuesOf]
  split
  next hnone =>
    refine .nil ?_
    rintro p issue (_ | _ | _ | ⟨hm', hf', hr, -⟩ | ⟨hm', hf', hr, -⟩)
    all_goals
      obtain rfl := Option.some.inj (hm.symm.trans hm')
      obtain rfl := Option.some.inj (hf.symm.trans hf')
      rw [hnone] at hr
      cases hr
  next r hr =>
    rw [← ite_not (r.isMeaningful = true), ← ite_not (relationTarget f.type ∈ s.modelNames),
      ← List.append_nil (if _ ∉ s.modelNames then _ else _)]
    refine .append ?_ ((InOrder.ite _ _).congr fun p issue => ?_)
      (.append ?_ ((InOrder.ite _ _).congr fun p issue => ?_) (.nil ?_))
    · rintro issue ⟨⟩
    · rw [Bool.not_eq_true, Relation.isMeaningful_eq_false_iff]
      constructor
      · rintro ⟨rfl, hnothing, rfl⟩
        exact .emptyRelation hm hf hr hnothing
      · rintro (_ | _ | _ | ⟨hm', hf', hr', hnothing⟩)
        obtain rfl := Option.some.inj (hm.symm.trans hm')
        obtain rfl := Option.some.inj (hf.symm.trans hf')
        obtain rfl := Option.some.inj (hr.symm.trans hr')
        exact ⟨rfl, hnothing, rfl⟩
    · rintro issue ⟨⟩
    · rw [modelNames, List.mem_map, not_exists]
      simp only [not_and]
      constructor
      · rintro ⟨rfl, hunknown, rfl⟩
        exact .unknownRelationTarget hm hf hr hunknown
      · rintro (_ | _ | _ | _ | ⟨hm', hf', -, hunknown⟩)
        obtain rfl := Option.some.inj (hm.symm.trans hm')
        obtain rfl := Option.some.inj (hf.symm.trans hf')
        exact ⟨rfl, hunknown, rfl⟩
    · intro p issue h
      match p with
      | [] => cases h
      | _ :: _ => cases h

theorem inOrder_relationIssues : InOrder (fun p => s.Finds (3 :: p)) s.relationIssues := by
  refine .flatMap ?_ ?_ fun i m hm => .flatMap ?_ ?_ fun j f hf => inOrder_relationIssuesOf hm hf
  · rintro issue ⟨⟩
  · rintro i p issue (_ | _ | _ | ⟨hm, -, -, -⟩ | ⟨hm, -, -, -⟩)
    all_goals exact (List.getElem?_eq_some_iff.1 hm).1
  · rintro issue ⟨⟩
  · rintro j p issue (_ | _ | _ | ⟨hm', hf, -, -⟩ | ⟨hm', hf, -, -⟩)
    all_goals
      obtain rfl := Option.some.inj (hm.symm.trans hm')
      exact (List.getElem?_eq_some_iff.1 hf).1

/-- The unknown names in the list of a directive are those of its pieces that are not blank. -/
theorem inOrder_idIssuesOf {i j : Nat} {m : Model} {d : String} (hm : s.models[i]? = some m)
    (hd : m.directives[j]? = some d) : InOrder (fun p => s.Finds (4 :: i :: j :: p))
      (((idNames d).filter fun n => n ∉ m.fields.map (·.name)).map (.unknownIdField m.name)) := by
  rw [idNames]
  split
  next list hlist =>
    have hkeep : ∀ piece : List Char, (decide (String.ofList (trim piece) ∉ m.fields.map (·.name)) &&
        !(trim piece).isEmpty) = true ↔
          String.ofList (trim piece) ≠ "" ∧ ∀ f ∈ m.fields, f.name ≠ String.ofList (trim piece) := by
      intro piece
      rw [Bool.and_eq_true, decide_eq_true_iff, Bool.not_eq_true', List.isEmpty_eq_false_iff,
        and_comm, ← String.ofList_nil, Ne, Ne, String.ofList_inj]
      simp
    simp only [Relation.trimmedPieces, List.filter_map, List.map_map, List.filter_filter]
    refine (InOrder.map_filter _ _ (splitOn [','] list)).congr fun p issue => ?_
    constructor
    · rintro ⟨k, piece, rfl, hpiece, hkept, rfl⟩
      obtain ⟨hne, hunknown⟩ := (hkeep piece).1 hkept
      exact .unknownIdField hm hd (idNames?_eq_some_iff.1 hlist) hpiece String.toList_ofList hne hunknown
    · rintro (_ | _ | _ | _ | _ | ⟨hm', hd', hlist', hpiece, hname, hne, hunknown⟩)
      obtain rfl := Option.some.inj (hm.symm.trans hm')
      obtain rfl := Option.some.inj (hd.symm.trans hd')
      obtain rfl := Option.some.inj (hlist.symm.trans (idNames?_eq_some_iff.2 hlist'))
      obtain rfl := String.ofList_toList.symm.trans (congrArg String.ofList hname)
      exact ⟨_, _, rfl, hpiece, (hkeep _).2 ⟨hne, hunknown⟩, rfl⟩
  next hnone =>
    refine .nil ?_
    rintro p issue (_ | _ | _ | _ | _ | ⟨hm', hd', hlist', -⟩)
    obtain rfl := Option.some.inj (hm.symm.trans hm')
    obtain rfl := Option.some.inj (hd.symm.trans hd')
    rw [idNames?_eq_some_iff.2 hlist'] at hnone
    cases hnone

theorem inOrder_idDirectiveIssues : InOrder (fun p => s.Finds (4 :: p)) s.idDirectiveIssues := by
  refine .flatMap ?_ ?_ fun i m hm => .flatMap ?_ ?_ fun j d hd => inOrder_idIssuesOf hm hd
  · rintro issue ⟨⟩
  · rintro i p issue (_ | _ | _ | _ | _ | ⟨hm, -, -, -, -, -, -⟩)
    exact (List.getElem?_eq_some_iff.1 hm).1
  · rintro issue ⟨⟩
  · rintro j p issue (_ | _ | _ | _ | _ | ⟨hm', hd, -, -, -, -, -⟩)
    obtain rfl := Option.some.inj (hm.symm.trans hm')
    exact (List.getElem?_eq_some_iff.1 hd).1

/-- The issues of a schema are what is found at its places, in their order. -/
theorem inOrder_issues : InOrder s.Finds s.issues := by
  refine .flatMap ?_ ?_ fun i check hcheck => ?_
  · rintro issue ⟨⟩
  · rintro i p issue (_ | _ | _ | _ | _ | _)
    all_goals decide
  · match i, hcheck with
    | 0, rfl => exact inOrder_modelNameIssues
    | 1, rfl => exact inOrder_fieldNameIssues
    | 2, rfl => exact inOrder_emptyModelIssues
    | 3, rfl => exact inOrder_relationIssues
    | 4, rfl => exact inOrder_idDirectiveIssues

/-! ### How many there are -/

/-- How many issues of a level and a code the checks find. -/
def count (s : Schema) (level code : String) : Nat :=
  s.issues.countP fun issue => issue.level = level ∧ issue.code = code

theorem countP_relationIssuesOf (counted : Issue → Bool) (s : Schema) (m : Model) (f : Field) :
    (s.relationIssuesOf m f).countP counted =
      (if (∃ r ∈ f.relation, r.NamesNothing) ∧ counted (.emptyRelation m.name f.name) then 1 else 0) +
      if (f.relation.isSome ∧ relationTarget f.type ∉ s.modelNames) ∧
        counted (.unknownRelationTarget m.name f.name (relationTarget f.type)) then 1 else 0 := by
  rw [relationIssuesOf]
  split
  next hnone => simp [hnone]
  next r hr =>
    simp only [hr, Option.mem_some_iff, exists_eq_left', Option.isSome_some, true_and,
      ← Relation.isMeaningful_eq_false_iff, List.countP_append]
    congr 1
    · cases r.isMeaningful <;> simp [List.countP_cons]
    · split <;> simp_all [List.countP_cons]

/-- What is counted among the issues is counted check by check. -/
theorem countP_issues (counted : Issue → Bool) (s : Schema) : s.issues.countP counted =
    (repeats [] s.modelNames).countP (fun name => counted (.duplicateModelName name)) +
    (s.models.map fun m =>
      (repeats [] (m.fields.map (·.name))).countP fun name => counted (.duplicateFieldName m.name name)).sum +
    s.models.countP (fun m => counted (.emptyModel m.name) && m.fields.isEmpty) +
    (s.models.map fun m => (m.fields.map fun f => (s.relationIssuesOf m f).countP counted).sum).sum +
    (s.models.map fun m => (m.directives.map fun d =>
      ((idNames d).filter fun n => n ∉ m.fields.map (·.name)).countP fun name =>
        counted (.unknownIdField m.name name)).sum).sum := by
  simp only [issues, checks, List.flatMap_cons, List.flatMap_nil, List.countP_append, List.countP_nil,
    modelNameIssues, fieldNameIssues, emptyModelIssues, relationIssues, idDirectiveIssues,
    List.countP_flatMap, List.countP_map, List.countP_filter, Function.comp_def]
  omega

theorem count_duplicateModelName : s.count "error" "DUPLICATE_MODEL_NAME" =
    s.models.length - s.modelNames.toFinset.card := by
  rw [count, countP_issues]
  simp [countP_relationIssuesOf, Issue.level, Issue.isError, Issue.code, length_repeats, modelNames]

theorem count_duplicateFieldName : s.count "error" "DUPLICATE_FIELD_NAME" =
    (s.models.map fun m => m.fields.length - (m.fields.map (·.name)).toFinset.card).sum := by
  rw [count, countP_issues]
  simp [countP_relationIssuesOf, Issue.level, Issue.isError, Issue.code, length_repeats]

theorem count_emptyModel :
    s.count "warning" "EMPTY_MODEL" = s.models.countP (·.fields = []) := by
  rw [count, countP_issues]
  simp only [Issue.level, Issue.isError, Issue.code, countP_relationIssuesOf]
  simp [← List.isEmpty_iff]

theorem count_emptyRelation : s.count "warning" "EMPTY_RELATION" =
    (s.models.map fun m => m.fields.countP fun f => ∃ r ∈ f.relation, r.NamesNothing).sum := by
  rw [count, countP_issues]
  simp [countP_relationIssuesOf, Issue.level, Issue.isError, Issue.code, sum_map_ite_one]

theorem count_unknownRelationTarget : s.count "warning" "UNKNOWN_RELATION_TARGET" =
    (s.models.map fun m => m.fields.countP fun f =>
      f.relation.isSome ∧ relationTarget f.type ∉ s.modelNames).sum := by
  rw [count, countP_issues]
  simp [countP_relationIssuesOf, Issue.level, Issue.isError, Issue.code, sum_map_ite_one]

/-! ### Valid schemas -/

/-- No name of a model and no name of a field in its model is given twice, and what stands between the commas of
the first list of a key directive is blank or names a field of its model. -/
structure WellNamed (s : Schema) : Prop where
  models : s.modelNames.Nodup
  fields : ∀ m ∈ s.models, (m.fields.map (·.name)).Nodup
  keys : ∀ m ∈ s.models, ∀ d ∈ m.directives, ∀ list, FirstKeyList d.toList list →
    ∀ piece ∈ splitOn [','] list, trim piece ≠ [] → ∃ f ∈ m.fields, f.name.toList = trim piece

theorem isValid_iff : s.isValid = true ↔ ∀ p issue, s.Finds p issue → issue.isError = false := by
  simp only [isValid, Bool.not_eq_true', List.any_eq_false, Bool.not_eq_true,
    inOrder_issues.mem_iff]
  exact ⟨fun h p issue hfinds => h issue ⟨p, hfinds⟩, fun h issue ⟨p, hfinds⟩ => h p issue hfinds⟩

theorem wellNamed_of_isValid (h : s.isValid = true) : s.WellNamed where
  models := by
    rw [modelNames, nodup_map_iff]
    intro i m hm hmem
    cases isValid_iff.1 h _ _ (.duplicateModelName hm hmem)
  fields := by
    intro m hm
    obtain ⟨i, hi⟩ := List.mem_iff_getElem?.1 hm
    rw [nodup_map_iff]
    intro j f hf hmem
    cases isValid_iff.1 h _ _ (.duplicateFieldName hi hf hmem)
  keys := by
    intro m hm d hd list hlist piece hpiece hne
    obtain ⟨i, hi⟩ := List.mem_iff_getElem?.1 hm
    obtain ⟨j, hj⟩ := List.mem_iff_getElem?.1 hd
    obtain ⟨k, hk⟩ := List.mem_iff_getElem?.1 hpiece
    by_contra hunknown
    have hname : (String.ofList (trim piece)).toList = trim piece := String.toList_ofList
    have hfilled : String.ofList (trim piece) ≠ "" := by
      intro hblank
      apply hne
      rw [← hname, hblank, String.toList_empty]
    have hfinds : s.Finds [4, i, j, k] (.unknownIdField m.name (String.ofList (trim piece))) := by
      refine .unknownIdField hi hj hlist hk hname hfilled ?_
      intro f hf heq
      exact hunknown ⟨f, hf, by rw [heq, hname]⟩
    cases isValid_iff.1 h _ _ hfinds

theorem isValid_of_wellNamed (h : s.WellNamed) : s.isValid = true := by
  rw [isValid_iff]
  intro p issue hfinds
  cases hfinds with
  | duplicateModelName hm hmem => exact absurd hmem ((nodup_map_iff _ _).1 h.models _ _ hm)
  | duplicateFieldName hm hf hmem =>
    have hnodup := h.fields _ (List.mem_of_getElem? hm)
    exact absurd hmem ((nodup_map_iff _ _).1 hnodup _ _ hf)
  | @unknownIdField i j k m d list piece name hm hd hlist hpiece hname hne hunknown =>
    have hblank : trim piece ≠ [] := fun hblank => hne (String.toList_inj.1 (hname.trans hblank))
    obtain ⟨f, hf, heq⟩ := h.keys m (List.mem_of_getElem? hm) d (List.mem_of_getElem? hd) list hlist
      piece (List.mem_of_getElem? hpiece) hblank
    exact absurd (String.toList_inj.1 (heq.trans hname.symm)) (hunknown f hf)
  | emptyModel => rfl
  | emptyRelation => rfl
  | unknownRelationTarget => rfl

/-- The checks find all there is and nothing else. -/
structure ExactlyChecked (s : Schema) : Prop where
  /-- The issues are what is found at the places, each once and in their order. -/
  inOrder : InOrder s.Finds s.issues
  valid : s.isValid = true ↔ s.WellNamed
  duplicateModelNames : s.count "error" "DUPLICATE_MODEL_NAME" =
    s.models.length - s.modelNames.toFinset.card
  duplicateFieldNames : s.count "error" "DUPLICATE_FIELD_NAME" =
    (s.models.map fun m => m.fields.length - (m.fields.map (·.name)).toFinset.card).sum
  emptyModels : s.count "warning" "EMPTY_MODEL" = s.models.countP (·.fields = [])
  emptyRelations : s.count "warning" "EMPTY_RELATION" =
    (s.models.map fun m => m.fields.countP fun f => ∃ r ∈ f.relation, r.NamesNothing).sum
  unknownRelationTargets : s.count "warning" "UNKNOWN_RELATION_TARGET" =
    (s.models.map fun m => m.fields.countP fun f =>
      f.relation.isSome ∧ relationTarget f.type ∉ s.modelNames).sum

/-- The checks of every schema are exact. -/
theorem exactlyChecked (s : Schema) : s.ExactlyChecked where
  inOrder := inOrder_issues
  valid := ⟨wellNamed_of_isValid, isValid_of_wellNamed⟩
  duplicateModelNames := count_duplicateModelName
  duplicateFieldNames := count_duplicateFieldName
  emptyModels := count_emptyModel
  emptyRelations := count_emptyRelation
  unknownRelationTargets := count_unknownRelationTarget

end Schema

end CatalogSync
