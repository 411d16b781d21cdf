import CatalogSync.Proofs.Schema.ParsedText

/-!
Lines that reading drops. A line that gives neither field nor directive may stand anywhere behind the brace
of a model, and nothing else that is read changes: it opens no section and starts no model, so it goes to
the fragment that is open, and there it is passed over.
-/

namespace CatalogSync

open Text (trim joined lines startsWith NoBreak)

namespace Model

/-! ### Lines of a body -/

/-- A line that reading drops: a blank one, a comment, a lone brace, or one that is no directive and gives no
field. -/
def Dropped (line : List Char) : Prop :=
  trim line = [] ∨ startsWith ['/', '/'] (trim line) = true ∨ trim line = ['}'] ∨
    startsWith ['@', '@'] (trim line) = false ∧ Field.parse line = .ok none

theorem addBody_dropped {line : List Char} (h : Dropped line) (m : Model) (ls : List (List Char)) :
    addBody m (line :: ls) = addBody m ls := by
  by_cases hskipped : trim line = [] ∨ startsWith ['/', '/'] (trim line) ∨ trim line = ['}']
  · have hline : bodyLine line = .skipped := if_pos hskipped
    rw [addBody, hline]
  · have hfield : startsWith ['@', '@'] (trim line) = false ∧ Field.parse line = .ok none := by
      rcases h with h | h | h | h
      · exact absurd (.inl h) hskipped
      · exact absurd (.inr (.inl h)) hskipped
      · exact absurd (.inr (.inr h)) hskipped
      · exact h
    have hline : bodyLine line = .field line := by
      rw [bodyLine, if_neg hskipped, if_neg (by simp [hfield.1])]
    rw [addBody, hline]
    simp only [hfield.2]

theorem addBody_insert {line : List Char} (h : Dropped line) (m : Model) (ls rest : List (List Char)) :
    addBody m (ls ++ line :: rest) = addBody m (ls ++ rest) := by
  rw [addBody_append, addBody_append]
  simp only [addBody_dropped h]

/-- Lines that are put together are read as they are; an empty one at the end counts for nothing. -/
theorem addBody_lines_joined {ls : List (List Char)} (h : ∀ l ∈ ls, NoBreak l) (m : Model) :
    addBody m (lines (joined ['\n'] ls)) = addBody m ls := by
  have hempty : Dropped [] := .inl rfl
  have hlast : ∀ l, NoBreak l → ∀ n, addBody n (lines l) = addBody n [l] := by
    intro l hl n
    cases l with
    | nil => exact (addBody_dropped hempty n []).symm
    | cons c l => rw [Text.lines_of_noBreak (List.cons_ne_nil c l) hl]
  rcases List.eq_nil_or_concat ls with rfl | ⟨front, last, rfl⟩
  · rfl
  · have hback : NoBreak last := h last (by simp)
    by_cases hfront : front = []
    · subst hfront
      exact hlast last hback m
    · have htext : joined ['\n'] (front ++ [last]) = joined ['\n'] front ++ '\n' :: last := by
        rw [Text.joined_append _ hfront (List.cons_ne_nil _ _), List.append_assoc]
        rfl
      rw [List.concat_eq_append, htext,
        Text.lines_joined_append hfront fun l hl => h l (by simp [hl]), addBody_append, addBody_append]
      simp only [hlast last hback]

/-! ### Fragments -/

/-- The text of lines is cut at a character within one of them. -/
theorem joined_append_cons (front : List (List Char)) (a b : List Char) (c : Char)
    (back : List (List Char)) : joined ['\n'] (front ++ (a ++ c :: b) :: back) =
      joined ['\n'] (front ++ [a]) ++ c :: joined ['\n'] (b :: back) := by
  have hfirst : joined ['\n'] ((a ++ c :: b) :: back) = a ++ c :: joined ['\n'] (b :: back) := by
    cases back <;> simp [joined]
  by_cases hfront : front = []
  · subst hfront
    exact hfirst
  · rw [Text.joined_append _ hfront (List.cons_ne_nil _ _),
      Text.joined_append _ hfront (List.cons_ne_nil _ _), hfirst]
    simp [joined]

/-- The lines of a fragment with a brace: what stands in front of the first one is the header, and what
follows it the body. -/
theorem exists_parse_joined {ls : List (List Char)} (h : ∃ l ∈ ls, '{' ∈ l) :
    ∃ header body, ∀ rest, (∀ l ∈ ls ++ rest, NoBreak l) →
      Model.parse (joined ['\n'] (ls ++ rest)) = if trim header = [] then .ok none
        else (addBody { name := String.ofList (trim header) } (body ++ rest)).map fun m => some m.finish := by
  have hfound : (ls.find? ('{' ∈ ·)).isSome := by simpa using h
  obtain ⟨line, hline⟩ := Option.isSome_iff_exists.1 hfound
  obtain ⟨hbrace, front, back, rfl, hfront⟩ := List.find?_eq_some_iff_append.1 hline
  obtain ⟨a, b, rfl, ha⟩ := List.eq_append_cons_of_mem (of_decide_eq_true hbrace)
  refine ⟨joined ['\n'] (front ++ [a]), b :: back, fun rest hbreak => ?_⟩
  have hheader : ∀ c ∈ joined ['\n'] (front ++ [a]), c ≠ '{' := by
    refine Text.forall_mem_joined (by decide) fun piece hpiece c hc hbrace => ?_
    subst hbrace
    rcases List.mem_append.1 hpiece with hpiece | hpiece
    · have hnone := hfront piece hpiece
      simp [hc] at hnone
    · rw [List.mem_singleton.1 hpiece] at hc
      exact ha hc
  have hbody : ∀ l ∈ b :: (back ++ rest), NoBreak l := by
    intro l hl
    rcases List.mem_cons.1 hl with rfl | hl
    · exact fun c hc => hbreak (a ++ '{' :: l) (by simp) c (by simp [hc])
    · refine hbreak l ?_
      rw [List.append_assoc, List.cons_append]
      exact List.mem_append_right _ (List.mem_cons_of_mem _ hl)
  have hcut := Text.cutAt?_append (fun hmem => hheader _ hmem rfl)
    (joined ['\n'] (b :: (back ++ rest)))
  rw [List.append_assoc, List.cons_append, joined_append_cons, List.cons_append]
  by_cases hname : trim (joined ['\n'] (front ++ [a])) = []
  · rw [if_pos hname, Model.parse, split?, hcut, Option.bind_some, if_pos hname]
  · rw [if_neg hname, parse_of_split (by rw [split?, hcut, Option.bind_some, if_neg hname]),
      addBody_lines_joined hbody]

/-- A fragment that has its brace gives the same with a dropped line behind. -/
theorem parse_joined_insert {line : List Char} (h : Dropped line) {ls rest : List (List Char)}
    (hbrace : ∃ l ∈ ls, '{' ∈ l) (hbreak : ∀ l ∈ ls ++ line :: rest, NoBreak l) :
    Model.parse (joined ['\n'] (ls ++ line :: rest)) = Model.parse (joined ['\n'] (ls ++ rest)) := by
  obtain ⟨header, body, hparse⟩ := exists_parse_joined hbrace
  have hothers : ∀ l ∈ ls ++ rest, NoBreak l := by
    intro l hl
    refine hbreak l ?_
    rcases List.mem_append.1 hl with hl | hl
    · exact List.mem_append_left _ hl
    · exact List.mem_append_right _ (List.mem_cons_of_mem _ hl)
  rw [hparse _ hbreak, hparse _ hothers, addBody_insert h]

end Model

namespace Schema

open Section (Inside current linesFrom linesFrom_append linesFrom_cons)

/-- A line that starts no model goes on with the fragment that lines in front of it left open. -/
theorem exists_fragmentLines_append (ls : List (List Char)) : ∃ front last,
    fragmentLines ls = front ++ [last] ∧ ∀ {rest first others}, fragmentLines rest = first :: others →
      fragmentLines (ls ++ rest) = front ++ (last ++ first) :: others := by
  induction ls with
  | nil => exact ⟨[], [], rfl, fun h => h⟩
  | cons l ls ih =>
    obtain ⟨front, last, hls, hrest⟩ := ih
    cases hl : Text.after? "model ".toList l with
    | some tail =>
      cases front with
      | nil =>
        refine ⟨[[]], tail :: last, by rw [fragmentLines, hl, hls]; rfl, fun h => ?_⟩
        rw [List.cons_append, fragmentLines, hl, hrest h]
        rfl
      | cons first front =>
        refine ⟨[] :: (tail :: first) :: front, last, by rw [fragmentLines, hl, hls]; rfl, fun h => ?_⟩
        rw [List.cons_append, fragmentLines, hl, hrest h]
        rfl
    | none =>
      cases front with
      | nil =>
        refine ⟨[], l :: last, by rw [fragmentLines, hl, hls]; rfl, fun h => ?_⟩
        rw [List.cons_append, fragmentLines, hl, hrest h]
        rfl
      | cons first front =>
        refine ⟨(l :: first) :: front, last, by rw [fragmentLines, hl, hls]; rfl, fun h => ?_⟩
        rw [List.cons_append, fragmentLines, hl, hrest h]
        rfl

theorem parseModels_congr (front back : List (List Char)) {x y : List Char}
    (h : Model.parse x = Model.parse y) :
    parseModels (front ++ x :: back) = parseModels (front ++ y :: back) := by
  induction front with
  | nil => rw [List.nil_append, List.nil_append, parseModels, parseModels, h]
  | cons z front ih => rw [List.cons_append, List.cons_append, parseModels, parseModels, ih]

theorem noBreak_of_mem_fragmentLines {ls fragment : List (List Char)} (h : ∀ l ∈ ls, NoBreak l)
    (hmem : fragment ∈ fragmentLines ls) : ∀ l ∈ fragment, NoBreak l := by
  obtain ⟨hfirst, hrest⟩ := fragment_of_mem_fragmentLines hmem
  intro l hl
  cases fragment with
  | nil => exact absurd hl List.not_mem_nil
  | cons first rest =>
    rcases List.mem_cons.1 hl with rfl | hl
    · obtain ⟨k, hk, hsuffix⟩ := hfirst l rfl
      exact (h k hk).of_isInfix hsuffix.isInfix
    · exact h l (hrest l hl).1

/-- A place within a model: behind the lines in front of it the section of the models is open, and the
fragment that is open has its brace. -/
def InsideModel (before : List (List Char)) : Prop :=
  current .generator before = .models ∧
    ∃ fragment ∈ (fragmentLines (Section.linesOf .models before)).getLast?, ∃ l ∈ fragment, '{' ∈ l

/-- Within a model are all places behind a line that starts it, where neither that line nor those behind it
open another section or start another model, and one of them has a brace. -/
theorem insideModel_of_block {pre mid : List (List Char)} {header : List Char}
    (hmid : ∀ l ∈ mid, Inside l) (hbrace : ∃ l ∈ header :: mid, '{' ∈ l) :
    InsideModel (pre ++ ("model ".toList ++ header) :: mid) := by
  have hopen : Section.openedBy? ("model ".toList ++ header) = some .models :=
    Section.openedBy?_append .models (' ' :: header)
  have hkeep : ∀ l ∈ mid, Section.openedBy? l = none ∨ Section.openedBy? l = some .models :=
    fun l hl => (hmid l hl).openedBy?
  refine ⟨?_, header :: mid, ?_, hbrace⟩
  · rw [current, List.foldl_append, List.foldl_cons, hopen]
    exact Section.current_keep hkeep
  · have hblock : linesFrom .models (current .generator pre) (("model ".toList ++ header) :: mid) =
        ("model ".toList ++ header) :: mid := by
      have hown := Section.linesFrom_block .models (current .generator pre) hopen hkeep []
      rwa [List.append_nil, if_pos rfl, Section.linesFrom_nil, List.append_nil] at hown
    have hfragment : fragmentLines (("model ".toList ++ header) :: mid) = [[], header :: mid] := by
      have hrest := fragmentLines_append (fun l hl => (hmid l hl).model) []
      rw [List.append_nil] at hrest
      rw [fragmentLines_model, hrest]
      simp [fragmentLines]
    obtain ⟨front, last, -, hfront⟩ := exists_fragmentLines_append (linesFrom .models .generator pre)
    rw [Section.linesOf_eq, linesFrom_append, hblock, hfront hfragment]
    simp

/-- A line that does not begin with the word of the models starts none. -/
theorem after?_model_eq_none {line : List Char}
    (h : startsWith Section.models.word.toList line = false) :
    Text.after? "model ".toList line = none := by
  refine Text.after?_eq_none_iff.2 (Bool.eq_false_iff.2 fun hstart => ?_)
  obtain ⟨rest, rfl⟩ := Text.startsWith_iff.1 hstart
  rw [Bool.eq_false_iff] at h
  exact h (Text.startsWith_append Section.models.word.toList (' ' :: rest))

/-- A dropped line behind lines that leave a fragment with a brace open changes no model: that fragment
reads as it did, and the others are the same. -/
theorem parseModels_fragments_insert {line : List Char} (hdropped : Model.Dropped line)
    (hstart : Text.after? "model ".toList line = none) {ls rest fragment : List (List Char)}
    (hfragment : fragment ∈ (fragmentLines ls).getLast?) (hbrace : ∃ l ∈ fragment, '{' ∈ l)
    (hbreak : ∀ l ∈ ls ++ line :: rest, NoBreak l) :
    parseModels (fragments (ls ++ line :: rest)) = parseModels (fragments (ls ++ rest)) := by
  obtain ⟨front, last, hfront, happend⟩ := exists_fragmentLines_append ls
  obtain ⟨first, others, hfirst⟩ := List.exists_cons_of_ne_nil (fragmentLines_ne_nil rest)
  have hnext : fragmentLines (line :: rest) = (line :: first) :: others := by
    rw [fragmentLines, hstart, hfirst]
  obtain rfl : last = fragment := by
    rw [hfront, List.getLast?_concat] at hfragment
    exact Option.some.inj hfragment
  have hmem : last ++ line :: first ∈ fragmentLines (ls ++ line :: rest) := by
    rw [happend hnext]
    simp
  rw [fragments, fragments, happend hnext, happend hfirst, List.map_append, List.map_append,
    List.map_cons, List.map_cons]
  exact parseModels_congr _ _
    (Model.parse_joined_insert hdropped hbrace (noBreak_of_mem_fragmentLines hbreak hmem))

/-- A line that reading drops changes nothing within a model, whatever else the text holds. -/
theorem parse_insert {s t : List Char} {before after : List (List Char)} {line : List Char}
    (hs : lines s = before ++ after) (ht : lines t = before ++ line :: after)
    (hinside : InsideModel before) (hquiet : ∀ u : Section, startsWith u.word.toList line = false)
    (hdropped : Model.Dropped line) : Schema.parse t = Schema.parse s := by
  obtain ⟨hcurrent, fragment, hfragment, hbrace⟩ := hinside
  have hopen : Section.openedBy? line = none := Section.openedBy?_eq_none hquiet
  have hshort : ∀ u, Section.linesOf u (lines s) =
      Section.linesOf u before ++ linesFrom u .models after := by
    intro u
    rw [hs, Section.linesOf_eq, linesFrom_append, hcurrent]
    rfl
  have hlong : ∀ u, Section.linesOf u (lines t) = Section.linesOf u before ++
      if .models = u then line :: linesFrom u .models after else linesFrom u .models after := by
    intro u
    rw [ht, Section.linesOf_eq, linesFrom_append, hcurrent, linesFrom_cons hopen]
    rfl
  have hmodels : parseModels (fragments (Section.linesOf .models (lines t))) =
      parseModels (fragments (Section.linesOf .models (lines s))) := by
    have hbreak : ∀ l ∈ Section.linesOf .models (lines t), NoBreak l :=
      fun l hl => Text.noBreak_of_mem_lines (Section.of_mem_linesOf hl).1
    rw [hlong, if_pos rfl] at hbreak ⊢
    rw [hshort]
    exact parseModels_fragments_insert hdropped (after?_model_eq_none (hquiet .models)) hfragment hbrace
      hbreak
  have hgenerator : Section.linesOf .generator (lines t) = Section.linesOf .generator (lines s) := by
    rw [hlong, hshort, if_neg (by decide)]
  have hdatasource : Section.linesOf .datasource (lines t) = Section.linesOf .datasource (lines s) := by
    rw [hlong, hshort, if_neg (by decide)]
  rw [Schema.parse, Schema.parse]
  simp only [hmodels, hgenerator, hdatasource]

/-- A model with a comment, and a field whose brackets stay open behind it. -/
def brokenField : List Char :=
  "model Shelf \x7b
  row Int @id
  // counted from the door
  place Int @default(f(1
\x7d
".toList

/-- The same without the field that is not read. -/
def soundFields : List Char :=
  "model Shelf \x7b
  row Int @id
  // counted from the door
\x7d
".toList

theorem parse_insert_brokenField : lines brokenField ≠ lines soundFields ∧
    Schema.parse brokenField = Schema.parse soundFields := by
  have hfields : lines soundFields = ([] ++ ("model ".toList ++ "Shelf \x7b".toList) ::
      ["  row Int @id".toList, "  // counted from the door".toList]) ++ [['\x7d']] := by
    have hletters : soundFields = _ := String.toList_ofList
    rw [hletters]
    decide +kernel
  have hbroken : lines brokenField = ([] ++ ("model ".toList ++ "Shelf \x7b".toList) ::
      ["  row Int @id".toList, "  // counted from the door".toList])
        ++ "  place Int @default(f(1".toList :: [['\x7d']] := by
    have hletters : brokenField = _ := String.toList_ofList
    rw [hletters]
    decide +kernel
  have hmid : ∀ l ∈ ["  row Int @id".toList, "  // counted from the door".toList], Inside l := by
    intro l hl
    refine (Section.inside_of_head? ?_).1
    simp only [List.mem_cons, List.not_mem_nil, or_false] at hl
    rcases hl with rfl | rfl <;> decide
  have hinside : InsideModel ([] ++ ("model ".toList ++ "Shelf \x7b".toList) ::
      ["  row Int @id".toList, "  // counted from the door".toList]) :=
    insideModel_of_block hmid ⟨_, List.mem_cons_self, by decide⟩
  have hquiet : ∀ u : Section, startsWith u.word.toList "  place Int @default(f(1".toList = false := by
    intro u
    cases u <;> decide
  have hdropped : Model.Dropped "  place Int @default(f(1".toList :=
    .inr (.inr (.inr ⟨by decide +kernel, by decide +kernel⟩))
  refine ⟨?_, parse_insert hfields hbroken hinside hquiet hdropped⟩
  rw [hfields, hbroken]
  decide

end Schema

end CatalogSync
