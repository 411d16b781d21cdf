import CatalogSync.Proofs.Schema.StableModel

/-!
Schemas whose text is written again as it was. The lines of a schema that was read fall into the
fragments of its models, but for a model whose name ends in a line that starts another one: its
block is cut in two, and neither part gives a model. So a text is written again as it was exactly
where no name does that and the body of each model is written again as it was.
-/

namespace CatalogSync

open Text (startsWith joined trim NoBreak)

namespace Model

/-- A model that was read again has the name that it had. -/
theorem name_of_reread {m n : Model} (h : m.reread = .ok n) : n.name = m.name := by
  rw [eq_finish_of_reread h, finish_eq]
  rfl

/-- Models of one name have the same block where they have the same body. -/
theorem blockTail_eq_iff {m n : Model} (hname : n.name = m.name) :
    n.blockTail = m.blockTail ↔ n.renderBody = m.renderBody := by
  have hheader : n.headerLines = m.headerLines := by rw [headerLines, headerLines, hname]
  rw [blockTail, blockTail, hheader, List.append_cancel_left_eq, List.append_cancel_right_eq]

/-! ### Blocks that are cut in two -/

/-- The fragments that the block of a model falls into, without the word in front of each. -/
def pieces (m : Model) : List (List (List Char)) := (Schema.fragmentLines m.block).tail

end Model

namespace Schema

/-- Fragments go on with the lines that follow, and a line that starts a model begins another
one. -/
theorem fragmentLines_append_model (ls : List (List Char)) {rest : List (List Char)}
    (h : (fragmentLines rest).head? = some []) :
    fragmentLines (ls ++ rest) = fragmentLines ls ++ (fragmentLines rest).tail := by
  induction ls with
  | nil =>
    obtain ⟨others, hothers⟩ := List.head?_eq_some_iff.1 h
    rw [List.nil_append, hothers]
    rfl
  | cons l ls ih =>
    obtain ⟨first, others, hfirst⟩ := List.exists_cons_of_ne_nil (fragmentLines_ne_nil ls)
    rw [List.cons_append, fragmentLines, fragmentLines, ih, hfirst]
    cases Text.after? "model ".toList l <;> rfl

/-- The fragments of models are those of their blocks, behind an empty one. -/
theorem fragmentLines_blocks (ms : List Model) :
    fragmentLines (ms.flatMap Model.block) = [] :: ms.flatMap Model.pieces := by
  induction ms with
  | nil => rfl
  | cons m ms ih =>
    obtain ⟨first, rest, -, hblock, -⟩ := m.exists_block
    have hhead : (fragmentLines (ms.flatMap Model.block)).head? = some [] := by
      rw [ih, List.head?_cons]
    have hself : fragmentLines m.block = [] :: m.pieces := by
      rw [Model.pieces, hblock, fragmentLines_model, List.tail_cons]
    rw [List.flatMap_cons, fragmentLines_append_model _ hhead, hself, ih, List.tail_cons,
      List.flatMap_cons, List.cons_append]

theorem parseModels_append {xs ys : List (List Char)} {ms : List Model}
    (h : parseModels (xs ++ ys) = .ok ms) :
    ∃ as bs, parseModels xs = .ok as ∧ parseModels ys = .ok bs ∧ ms = as ++ bs := by
  induction xs generalizing ms with
  | nil => exact ⟨[], ms, rfl, h, rfl⟩
  | cons x xs ih =>
    obtain ⟨m, rest, hx, hrest, rfl⟩ := parseModels_cons_eq_ok_iff.1 h
    obtain ⟨as, bs, has, hbs, rfl⟩ := ih hrest
    exact ⟨m.toList ++ as, bs, parseModels_cons_eq_ok_iff.2 ⟨m, as, hx, has, rfl⟩, hbs,
      (List.append_assoc ..).symm⟩

end Schema

namespace Model

theorem Framed.pieces_eq {m : Model} (h : m.Framed) : m.pieces = [m.blockTail] := by
  have hall : ∀ n ∈ [m], n.Framed := fun n hn => by rwa [List.mem_singleton.1 hn]
  have hfragments := Schema.fragmentLines_models hall
  rw [List.flatMap_cons, List.flatMap_nil, List.append_nil] at hfragments
  rw [pieces, hfragments]
  rfl

/-- The block of a model whose name ends in a line that starts a model is cut in two in front of
that line: the first part has no brace, the second has nothing in front of it. -/
theorem ReadOff.pieces_of_opensModel {m : Model} (h : m.ReadOff) (hopens : m.OpensModel) :
    ∃ first second, m.pieces = [first, ['{'] :: second] ∧ '{' ∉ joined ['\n'] first := by
  obtain ⟨x, hx⟩ := hopens
  have hname : m.name.toList = x ++ '\n' :: "model".toList := by
    rw [← hx]
    simp
  have hlast : Text.cutWhere (· = '\n') ("model".toList ++ [' ', '{']) = ["model ".toList ++ ['{']] :=
    Text.cutWhere_of_none (by decide)
  have hheader : m.headerLines = Text.cutWhere (· = '\n') x ++ ["model ".toList ++ ['{']] := by
    rw [headerLines, hname, List.append_assoc, List.cons_append,
      Text.cutWhere_append_cons _ _ (by decide), hlast]
  obtain ⟨first, others, hcut⟩ := List.exists_cons_of_ne_nil (Text.cutWhere_ne_nil (· = '\n') x)
  -- the lines of the name between the first and the last one start no model
  have hothers : ∀ l ∈ others, startsWith "model ".toList l = false := by
    intro l hl
    have htail : l ∈ (Text.cutWhere (· = '\n') x).tail := by
      rw [hcut]
      exact hl
    obtain ⟨a, c, b, hc, hsplit, hb⟩ := Text.exists_of_mem_tail_cutWhere htail
    obtain rfl : c = '\n' := by simpa using hc
    have hinside := (h.clear a (b ++ '\n' :: "model".toList) (by rw [hname, hsplit]; simp)).of_append
    rcases hb with rfl | ⟨d, z, -, rfl⟩
    · exact hinside.model
    · exact hinside.of_append.model
  have hbody : ∀ l ∈ m.renderBody ++ [['}'], []], startsWith "model ".toList l = false := by
    intro l hl
    rw [List.mem_append] at hl
    rcases hl with hl | hl
    · exact (h.enclosed.body_inside l hl).model
    · simp only [List.mem_cons, List.not_mem_nil, or_false] at hl
      rcases hl with rfl | rfl <;> rfl
  have hblock : m.block = ("model ".toList ++ first) ::
      (others ++ ("model ".toList ++ ['{']) :: (m.renderBody ++ [['}'], []])) := by
    rw [block, blockTail, hheader, hcut]
    simp
  have hrest := Schema.fragmentLines_append hbody []
  rw [List.append_nil] at hrest
  refine ⟨first :: others, m.renderBody ++ [['}'], []], ?_, ?_⟩
  · rw [pieces, hblock, Schema.fragmentLines_model, Schema.fragmentLines_append hothers,
      Schema.fragmentLines_model, hrest]
    simp [Schema.fragmentLines]
  · rw [← hcut, Text.joined_cutWhere fun c _ hc => by simpa using hc]
    intro hmem
    refine h.noBrace ?_
    rw [hname]
    exact List.mem_append_left _ hmem

/-- Neither part of a block that is cut in two gives a model. -/
theorem ReadOff.parseModels_of_opensModel {m : Model} (h : m.ReadOff) (hopens : m.OpensModel) :
    m.pieces.length = 2 ∧ Schema.parseModels (m.pieces.map (joined ['\n'])) = .ok [] := by
  obtain ⟨first, second, hpieces, hbrace⟩ := h.pieces_of_opensModel hopens
  have hfirst : Model.parse (joined ['\n'] first) = .ok none := by
    rw [Model.parse, split?, Text.cutAt?_eq_none hbrace]
    rfl
  have hsecond : Model.parse (joined ['\n'] (['{'] :: second)) = .ok none := by
    cases second <;> rfl
  rw [hpieces]
  refine ⟨rfl, ?_⟩
  rw [List.map_cons, List.map_cons, List.map_nil, Schema.parseModels, hfirst, Schema.parseModels,
    hsecond]
  rfl

end Model

namespace Schema

/-- Of the fragments of models two for each block that is cut give no model, and no model that the
others give is cut again. -/
theorem length_add_le_of_parseModels {ms ns : List Model} (hms : ∀ m ∈ ms, m.ReadOff)
    (h : parseModels ((ms.flatMap Model.pieces).map (joined ['\n'])) = .ok ns) :
    ns.length + 2 * ms.countP (fun m => decide m.OpensModel) ≤ (ms.flatMap Model.pieces).length ∧
      ∀ n ∈ ns, ¬n.OpensModel := by
  induction ms generalizing ns with
  | nil =>
    obtain rfl : [] = ns := Except.ok.inj h
    exact ⟨Nat.le_refl 0, fun n hn => absurd hn List.not_mem_nil⟩
  | cons m ms ih =>
    have hm := hms m List.mem_cons_self
    rw [List.flatMap_cons, List.map_append] at h
    obtain ⟨as, bs, has, hbs, rfl⟩ := parseModels_append h
    obtain ⟨hle, hnone⟩ := ih (fun n hn => hms n (List.mem_cons_of_mem _ hn)) hbs
    rw [List.flatMap_cons, List.length_append, List.length_append]
    by_cases hopens : m.OpensModel
    · obtain ⟨hlength, hempty⟩ := hm.parseModels_of_opensModel hopens
      rw [hempty] at has
      obtain rfl : [] = as := Except.ok.inj has
      rw [List.countP_cons_of_pos (by simpa using hopens), hlength]
      refine ⟨?_, hnone⟩
      rw [List.length_nil]
      omega
    · have hframed := hm.framed hopens
      rw [hframed.pieces_eq, List.map_cons, List.map_nil, parseModels,
        Model.parse_blockTail hframed] at has
      rw [List.countP_cons_of_neg (by simpa using hopens), hframed.pieces_eq, List.length_singleton]
      cases hreread : m.reread with
      | error e =>
        rw [hreread] at has
        cases has
      | ok n =>
        rw [hreread] at has
        obtain rfl : [n] = as := Except.ok.inj has
        refine ⟨?_, fun k hk => ?_⟩
        · rw [List.length_singleton]
          omega
        · rcases List.mem_append.1 hk with hk | hk
          · rw [List.mem_singleton.1 hk, Model.OpensModel, Model.name_of_reread hreread]
            exact hopens
          · exact hnone k hk

theorem linesOf_models {t : List Char} {s : Schema} (h : Schema.parse t = .ok s) :
    Section.linesOf .models (Text.lines s.render) = s.modelLines := by
  obtain ⟨hg, hd⟩ := headerFits_of_parse h
  exact (linesOf_render hg hd fun m hm => (readOff_of_parse h hm).enclosed).2.2

/-- Schemas that were read have the same text only where their models fall into the same
fragments. -/
theorem pieces_eq_of_render_eq {t t' : List Char} {s s' : Schema} (hs : Schema.parse t = .ok s)
    (hs' : Schema.parse t' = .ok s') (hrender : s'.render = s.render) :
    s'.models.flatMap Model.pieces = s.models.flatMap Model.pieces := by
  have hlines : s'.modelLines = s.modelLines := by
    rw [← linesOf_models hs', hrender, linesOf_models hs]
  have hfragments := congrArg fragmentLines hlines
  rw [modelLines, modelLines, fragmentLines_blocks, fragmentLines_blocks] at hfragments
  exact (List.cons.inj hfragments).2

theorem flatMap_pieces {ms : List Model} (h : ∀ m ∈ ms, m.Framed) :
    ms.flatMap Model.pieces = ms.map Model.blockTail := by
  have hfragments := fragmentLines_models h
  rw [fragmentLines_blocks] at hfragments
  exact (List.cons.inj hfragments).2

/-- The models that the text of a schema is read as come from the fragments of its models. -/
theorem parseModels_pieces {t : List Char} {s s' : Schema} (hs : Schema.parse t = .ok s)
    (hs' : Schema.parse s.render = .ok s') :
    parseModels ((s.models.flatMap Model.pieces).map (joined ['\n'])) = .ok s'.models := by
  have hparsed := (exists_of_parse hs').2.2
  have hempty : Model.parse (joined ['\n'] []) = .ok none := rfl
  rw [linesOf_models hs, fragments, modelLines, fragmentLines_blocks, List.map_cons,
    parseModels_cons_eq_ok_iff] at hparsed
  obtain ⟨m, rest, hm, hrest, hmodels⟩ := hparsed
  obtain rfl : none = m := Except.ok.inj (hempty.symm.trans hm)
  exact hmodels ▸ hrest

/-- A text that is written again as it was cuts no block in two: of a block that is cut the second
time there would be two fragments, but no model to write them. -/
theorem not_opensModel_of_render_eq {t : List Char} {s s' : Schema} (hs : Schema.parse t = .ok s)
    (hs' : Schema.parse s.render = .ok s') (hrender : s'.render = s.render) :
    (∀ m ∈ s.models, ¬m.OpensModel) ∧ ∀ n ∈ s'.models, ¬n.OpensModel := by
  obtain ⟨hle, hnone⟩ := length_add_le_of_parseModels (fun m hm => readOff_of_parse hs hm)
    (parseModels_pieces hs hs')
  have hframed : ∀ n ∈ s'.models, n.Framed := fun n hn =>
    (readOff_of_parse hs' hn).framed (hnone n hn)
  rw [← pieces_eq_of_render_eq hs hs' hrender, flatMap_pieces hframed, List.length_map] at hle
  have hcount : s.models.countP (fun m => decide m.OpensModel) = 0 := by omega
  refine ⟨fun m hm hopens => ?_, hnone⟩
  exact List.countP_eq_zero.1 hcount m hm (by simpa using hopens)

/-- Models that are read again have the same blocks where each has the same body. -/
theorem map_blockTail_eq_iff {ms ns : List Model}
    (h : List.Forall₂ (fun m n : Model => m.reread = .ok n) ms ns) :
    ns.map Model.blockTail = ms.map Model.blockTail ↔
      ∀ m ∈ ms, ∃ n, m.reread = .ok n ∧ n.renderBody = m.renderBody := by
  induction h with
  | nil => simp
  | cons hfirst _ ih =>
    rename_i m n ms ns
    rw [List.map_cons, List.map_cons, List.cons.injEq, ih, List.forall_mem_cons,
      Model.blockTail_eq_iff (Model.name_of_reread hfirst), hfirst]
    simp

/-- The models of a text show in it by their blocks alone. -/
theorem render_congr {s s' : Schema} (hg : s'.generator = s.generator)
    (hd : s'.datasource = s.datasource)
    (h : s'.models.map Model.blockTail = s.models.map Model.blockTail) : s'.render = s.render := by
  have hmodels : ∀ ms : List Model, (ms.flatMap fun m => m.render ++ ['\n']) =
      (ms.map Model.blockTail).flatMap fun ls =>
        joined ['\n'] (ls.modifyHead ("model ".toList ++ ·)) ++ ['\n'] := by
    intro ms
    rw [List.flatMap_map]
    exact List.flatMap_congr fun m _ => by rw [Model.render_eq, Model.block]
  rw [render, render, hg, hd, hmodels, hmodels, h]

/-- The text of a schema that was read is written again as it was exactly where it cuts no block in
two and the body of each model is written again as it was. -/
theorem render_again_iff_body {t : List Char} {s : Schema} (h : Schema.parse t = .ok s) :
    (∃ s', Schema.parse s.render = .ok s' ∧ s'.render = s.render) ↔
      ∀ m ∈ s.models, ¬m.OpensModel ∧ ∃ n, m.reread = .ok n ∧ n.renderBody = m.renderBody := by
  obtain ⟨hg, hd⟩ := headerFits_of_parse h
  have hread : ∀ m ∈ s.models, ¬m.OpensModel → m.Framed := fun m hm =>
    (readOff_of_parse h hm).framed
  constructor
  · rintro ⟨s', hs', hrender⟩ m hm
    obtain ⟨hopens, hopens'⟩ := not_opensModel_of_render_eq h hs' hrender
    have hblocks := pieces_eq_of_render_eq h hs' hrender
    rw [flatMap_pieces fun m hm => hread m hm (hopens m hm), flatMap_pieces fun n hn =>
      (readOff_of_parse hs' hn).framed (hopens' n hn)] at hblocks
    rw [parse_render hg hd fun m hm => hread m hm (hopens m hm)] at hs'
    cases hms : s.models.mapM Model.reread with
    | error e =>
      rw [hms] at hs'
      cases hs'
    | ok ms =>
      rw [hms] at hs'
      obtain rfl := Except.ok.inj hs'
      exact ⟨hopens m hm, (map_blockTail_eq_iff (mapM_eq_ok_iff.1 hms)).1 hblocks m hm⟩
  · intro hmodels
    obtain ⟨ms, hms⟩ := exists_mapM_eq_ok fun m hm => (hmodels m hm).2.imp fun _ hn => hn.1
    refine ⟨{ s with models := ms }, ?_, render_congr rfl rfl ?_⟩
    · rw [parse_render hg hd fun m hm => hread m hm (hmodels m hm).1, hms]
      rfl
    · exact (map_blockTail_eq_iff (mapM_eq_ok_iff.1 hms)).2 fun m hm => (hmodels m hm).2

/-- The text of a schema that was read is read again and written again as it was exactly where no
name of a model ends in a line that starts a model, no model without a single key gets one from its
directives, and the line of each field is read as a field that says the same. -/
theorem render_again_iff {t : List Char} {s : Schema} (h : Schema.parse t = .ok s) :
    (∃ s', Schema.parse s.render = .ok s' ∧ s'.render = s.render) ↔
      ∀ m ∈ s.models, ¬m.OpensModel ∧ (m.idFieldCount ≠ 1 → m.namedCount ≠ 1) ∧
        ∀ f ∈ m.fields, m.Keeps f := by
  rw [render_again_iff_body h]
  exact forall₂_congr fun m hm => and_congr_right fun _ =>
    (readOff_of_parse h hm).body_again_iff_keeps

/-- A text by hand: a header over two lines, a mark for unique values behind another attribute, a
comment, two keys that a directive names, and the parts of a relation out of their order. -/
def handWritten : List Char :=
  "model Author
\x7b
 id Int @id @default(autoincrement())
 email String? @db.VarChar( 20 )  @unique( map: \"one each\" )
 // shelves by key
 books Book[]
\x7d

model Book \x7b
  shelf Int @id
  place Int @id @default( dbgenerated(\"f(1)\") )
  author Author? @relation(references:[id], fields: [shelf, place], map: \"fk of author\")
  @@id([shelf, place])
\x7d
".toList

set_option maxRecDepth 2048 in
theorem render_again_handWritten : ∃ s, Schema.parse handWritten = .ok s ∧
    (∀ m ∈ s.models, ¬m.OpensModel ∧ (m.idFieldCount ≠ 1 → m.namedCount ≠ 1) ∧
      ∀ f ∈ m.fields, m.Keeps f) ∧
    ∃ s', Schema.parse s.render = .ok s' ∧ s'.render = s.render := by
  have hparsed : ∃ s ∈ (Schema.parse handWritten).toOption, ∀ m ∈ s.models, ¬m.OpensModel ∧
      (m.idFieldCount ≠ 1 → m.namedCount ≠ 1) ∧ ∀ f ∈ m.fields, m.Keeps f := by
    -- A list of characters is evaluated faster than a text that has to be decoded.
    have hletters : handWritten = _ := String.toList_ofList
    rw [hletters]
    decide +kernel
  obtain ⟨s, hs, hkeeps⟩ := hparsed
  have h := eq_ok_of_mem_toOption hs
  exact ⟨s, h, hkeeps, (render_again_iff h).2 hkeeps⟩

/-- Two fields with a mark of their own and a directive that names one of them. -/
def doubleKey : List Char :=
  "model Shelf \x7b
  row Int @id
  place Int @id
  @@id([row])
\x7d
".toList

/-- Of two keys the text shows none; read again it has the one that the directive names, and shows
it. -/
theorem render_doubleKey_ne : ∃ s s', Schema.parse doubleKey = .ok s ∧
    Schema.parse s.render = .ok s' ∧ s'.render ≠ s.render := by
  have hparsed : ∃ s ∈ (Schema.parse doubleKey).toOption,
      ∃ s' ∈ (Schema.parse s.render).toOption, s'.render ≠ s.render := by
    have hletters : doubleKey = _ := String.toList_ofList
    rw [hletters]
    decide +kernel
  obtain ⟨s, hs, s', hs', hne⟩ := hparsed
  exact ⟨s, s', eq_ok_of_mem_toOption hs, eq_ok_of_mem_toOption hs', hne⟩

end Schema

end CatalogSync
