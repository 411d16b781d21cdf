import CatalogSync.Proofs.Catalog.Encoded
import CatalogSync.Proofs.Database.Survey

/-!
Databases whose text is delivered as bytes. A survey is what the visits of the listed tables bring, so a survey
of a database and one of the same database with the bytes of some of its texts are compared visit by visit. They
are the same where the names of tables, the names of columns and the marks of nullability come as they were,
and their results are the same exactly where those do on which the result depends.
-/

namespace CatalogSync

theorem columnNotes_of_forall₂ {rows rows' : List Row}
    (h : List.Forall₂ (fun row row' => Column.rowNotes row' = Column.rowNotes row ∧
      Column.ofRow row' = Column.ofRow row) rows rows') : columnNotes rows' = columnNotes rows := by
  induction h with
  | nil => rfl
  | cons hrow _ ih => rw [columnNotes, columnNotes, hrow.1, hrow.2, ih]

/-! ### Visits -/

/-- An outcome some of whose text cells are delivered as bytes. -/
inductive Outcome.Encoded : Outcome → Outcome → Prop
  | rows {rows rows' : List Row} (h : List.Forall₂ (List.Forall₂ Cell.Encoded) rows rows') :
    Encoded (.rows rows) (.rows rows')
  | failure (reason : String) : Encoded (.failure reason) (.failure reason)

theorem outcomeAt_encoded {outcomes outcomes' : List Outcome}
    (h : List.Forall₂ Outcome.Encoded outcomes outcomes') (n : Nat) :
    (outcomeAt outcomes n).Encoded (outcomeAt outcomes' n) := by
  induction h generalizing n with
  | nil => exact .rows .nil
  | cons hfirst _ ih =>
    cases n with
    | zero => exact hfirst
    | succ n => exact ih n

namespace Visit

/-- What a visit brings. -/
def survey (v : Visit) : Survey := (surveyTable v.name [v.described, v.constrained]).1

/-- What visits bring, one after another. -/
def surveyEach : List Visit → Survey
  | [] => {}
  | v :: vs => v.survey ++ surveyEach vs

/-- A visit some of whose text cells are delivered as bytes; the name of its table may be another. -/
structure Encoded (v v' : Visit) : Prop where
  described : v.described.Encoded v'.described
  constrained : v.constrained.Encoded v'.constrained

theorem Encoded.length_statements {v v' : Visit} (h : v.Encoded v') :
    v'.statements.length = v.statements.length := by
  obtain ⟨name, described, constrained⟩ := v
  obtain ⟨name', described', constrained'⟩ := v'
  obtain ⟨hdescribed, -⟩ := h
  cases hdescribed <;> rfl

end Visit

theorem nextOutcome_cons (o : Outcome) (rest : List Outcome) : nextOutcome (o :: rest) = (o, rest) := rfl

/-- What is brought of a table is what its visit brings. -/
theorem surveyTable_drop (outcomes : List Outcome) (cursor : Nat) (name : String) :
    (surveyTable name (outcomes.drop cursor)).1 = (visitAt outcomes cursor name).survey ∧
    ((visitAt outcomes cursor name).survey.fault = none → (surveyTable name (outcomes.drop cursor)).2 =
      outcomes.drop (cursor + (visitAt outcomes cursor name).statements.length)) := by
  unfold visitAt Visit.survey
  rw [surveyTable, surveyTable, nextOutcome_drop, nextOutcome_cons]
  cases outcomeAt outcomes cursor with
  | failure reason => exact ⟨rfl, fun _ => rfl⟩
  | rows rows =>
    dsimp only
    cases rows.mapM Column.ofRow with
    | error e =>
      refine ⟨rfl, fun hfault => ?_⟩
      cases hfault
    | ok columns =>
      dsimp only
      rw [nextOutcome_drop, nextOutcome_cons]
      cases outcomeAt outcomes (cursor + 1) with
      | failure reason => exact ⟨rfl, fun _ => rfl⟩
      | rows constraintRows =>
        dsimp only
        split
        · refine ⟨rfl, fun hfault => ?_⟩
          cases hfault
        · exact ⟨rfl, fun _ => rfl⟩
        · exact ⟨rfl, fun _ => rfl⟩

/-- The survey of listed tables is what their visits bring. -/
theorem surveyTables_drop (outcomes : List Outcome) (cursor : Nat) (names : List String) :
    surveyTables names (outcomes.drop cursor) = Visit.surveyEach (visits outcomes cursor names) := by
  induction names generalizing cursor with
  | nil => rfl
  | cons name names ih =>
    obtain ⟨hfirst, hlater⟩ := surveyTable_drop outcomes cursor name
    rw [surveyTables, visits, Visit.surveyEach]
    dsimp only
    rw [hfirst]
    cases hfault : (visitAt outcomes cursor name).survey.fault with
    | some e => rw [Survey.append_of_fault_eq_some hfault, Survey.append_of_fault_eq_some hfault]
    | none => rw [hlater hfault, ih]

/-! ### Two surveys -/

/-- A second survey ends without a fault and has the tables and reports of the first exactly under a condition;
where it ends without a fault, it has as many. -/
structure Survey.Agrees (kept : Prop) (s s' : Survey) : Prop where
  same : s'.fault = none ∧ s'.tables = s.tables ∧ s'.errors = s.errors ↔ kept
  tables : s'.fault = none → s'.tables.length = s.tables.length
  errors : s'.fault = none → s'.errors.length = s.errors.length

namespace Survey

variable {kept later : Prop} {s s' t t' : Survey}

theorem fault_append_eq_none_iff : (s ++ t).fault = none ↔ s.fault = none ∧ t.fault = none := by
  cases hs : s.fault with
  | some e =>
    rw [append_of_fault_eq_some hs, hs]
    simp
  | none =>
    rw [append_of_fault_eq_none hs]
    simp

/-- Surveys of the same numbers of tables and reports are compared part by part. -/
theorem Agrees.append (hs : s.fault = none) (h : Agrees kept s s') (ht : Agrees later t t') :
    Agrees (kept ∧ later) (s ++ t) (s' ++ t') := by
  rw [append_of_fault_eq_none hs]
  cases hs' : s'.fault with
  | some e =>
    have hnot : ¬kept := by
      intro hkept
      rw [(h.same.2 hkept).1] at hs'
      cases hs'
    rw [append_of_fault_eq_some hs']
    exact ⟨by simp [hs', hnot], by simp [hs'], by simp [hs']⟩
  | none =>
    rw [append_of_fault_eq_none hs']
    refine ⟨?_, fun ht' => ?_, fun ht' => ?_⟩
    · constructor
      · rintro ⟨ht', htables, herrors⟩
        obtain ⟨hfirst, hrest⟩ := List.append_inj htables (h.tables hs')
        obtain ⟨hfirst', hrest'⟩ := List.append_inj herrors (h.errors hs')
        exact ⟨h.same.1 ⟨hs', hfirst, hfirst'⟩, ht.same.1 ⟨ht', hrest, hrest'⟩⟩
      · rintro ⟨hkept, hlater⟩
        obtain ⟨-, htables, herrors⟩ := h.same.2 hkept
        obtain ⟨ht', htables', herrors'⟩ := ht.same.2 hlater
        exact ⟨ht', by rw [htables, htables'], by rw [herrors, herrors']⟩
    · rw [List.length_append, List.length_append, h.tables hs', ht.tables ht']
    · rw [List.length_append, List.length_append, h.errors hs', ht.errors ht']

theorem agrees_ofFailure {events events' : List Event} {notes notes' : List Note}
    {table table' reason : String} (hkept : table' = table ↔ kept) :
    Agrees kept (ofFailure events notes table reason) (ofFailure events' notes' table' reason) := by
  refine ⟨?_, fun _ => rfl, fun _ => rfl⟩
  rw [← hkept]
  simp [ofFailure]

end Survey

namespace Visit

variable {name : String} {rows constraintRows : List Row} {columns : List Column}
  {constraints : List ConstraintRow}

theorem survey_mk (name : String) (described constrained : Outcome) :
    (⟨name, described, constrained⟩ : Visit).survey = (surveyTable name [described, constrained]).1 := rfl

theorem exists_columns {constrained : Outcome}
    (hok : (⟨name, .rows rows, constrained⟩ : Visit).survey.fault = none) :
    ∃ columns, rows.mapM Column.ofRow = .ok columns := by
  cases hcolumns : rows.mapM Column.ofRow with
  | ok columns => exact ⟨columns, rfl⟩
  | error e =>
    simp only [survey_mk, surveyTable, nextOutcome_cons, hcolumns] at hok
    cases hok

theorem survey_of_failure (hcolumns : rows.mapM Column.ofRow = .ok columns) (reason : String) :
    (⟨name, .rows rows, .failure reason⟩ : Visit).survey =
      .ofFailure [.execute (.describe name), .execute (.constraints name)] (columnNotes rows) name reason := by
  simp only [survey_mk, surveyTable, nextOutcome_cons, hcolumns]
  rfl

theorem exists_constraints (hcolumns : rows.mapM Column.ofRow = .ok columns)
    (hok : (⟨name, .rows rows, .rows constraintRows⟩ : Visit).survey.fault = none) :
    ∃ constraints, constraintRows.mapM ConstraintRow.ofRow = .ok constraints := by
  cases hconstraints : constraintRows.mapM ConstraintRow.ofRow with
  | ok constraints => exact ⟨constraints, rfl⟩
  | error e =>
    simp only [survey_mk, surveyTable, nextOutcome_cons, hcolumns, hconstraints] at hok
    cases hok

theorem survey_of_nil (name : String)
    (hconstraints : constraintRows.mapM ConstraintRow.ofRow = .ok constraints) :
    let s := (⟨name, .rows [], .rows constraintRows⟩ : Visit).survey
    s.fault = none ∧ s.tables = [] ∧ s.errors = [] := by
  simp only [survey_mk, surveyTable, nextOutcome_cons, hconstraints]
  exact ⟨rfl, rfl, rfl⟩

theorem survey_of_columns (name : String) (hcolumns : rows.mapM Column.ofRow = .ok columns)
    (hne : columns ≠ [])
    (hconstraints : constraintRows.mapM ConstraintRow.ofRow = .ok constraints) :
    let s := (⟨name, .rows rows, .rows constraintRows⟩ : Visit).survey
    s.errors = [] ∧ match (Key.ofRows constraints).bind (Table.make name columns) with
      | .error e => s.fault = some e
      | .ok t => s.fault = none ∧ s.tables = [t] := by
  simp only [survey_mk, surveyTable, nextOutcome_cons, hcolumns, hconstraints, bind, Except.bind, if_neg hne]
  cases Key.ofRows constraints with
  | error e => exact ⟨rfl, rfl⟩
  | ok keys =>
    dsimp only
    cases Table.make name columns keys with
    | error e => exact ⟨rfl, rfl⟩
    | ok t => exact ⟨rfl, rfl, rfl⟩

theorem agrees_omitted {name' : String} {constraintRows' : List Row}
    (hconstraints : constraintRows.mapM ConstraintRow.ofRow = .ok constraints)
    (hconstraints' : constraintRows'.mapM ConstraintRow.ofRow = .ok constraints) :
    Survey.Agrees True (⟨name, .rows [], .rows constraintRows⟩ : Visit).survey
      (⟨name', .rows [], .rows constraintRows'⟩ : Visit).survey := by
  obtain ⟨-, htables, herrors⟩ := survey_of_nil name hconstraints
  obtain ⟨hfault', htables', herrors'⟩ := survey_of_nil name' hconstraints'
  exact ⟨by simp [htables, htables', herrors, herrors', hfault'], fun _ => by rw [htables, htables'],
    fun _ => by rw [herrors, herrors']⟩

/-- Two tables with the same keys are the same exactly if their names and their columns are. -/
theorem agrees_emitted {name' : String} {rows' constraintRows' : List Row} {columns' : List Column}
    (hcolumns : rows.mapM Column.ofRow = .ok columns) (hcolumns' : rows'.mapM Column.ofRow = .ok columns')
    (hne : columns ≠ []) (hne' : columns' ≠ [])
    (hconstraints : constraintRows.mapM ConstraintRow.ofRow = .ok constraints)
    (hconstraints' : constraintRows'.mapM ConstraintRow.ofRow = .ok constraints)
    (hok : (⟨name, .rows rows, .rows constraintRows⟩ : Visit).survey.fault = none) :
    Survey.Agrees (name' = name ∧ columns' = columns) (⟨name, .rows rows, .rows constraintRows⟩ : Visit).survey
      (⟨name', .rows rows', .rows constraintRows'⟩ : Visit).survey := by
  obtain ⟨herrors, hmade⟩ := survey_of_columns name hcolumns hne hconstraints
  obtain ⟨herrors', hmade'⟩ := survey_of_columns name' hcolumns' hne' hconstraints'
  obtain ⟨t, ht⟩ : ∃ t, (Key.ofRows constraints).bind (Table.make name columns) = .ok t := by
    cases ht : (Key.ofRows constraints).bind (Table.make name columns) with
    | ok t => exact ⟨t, rfl⟩
    | error e =>
      rw [ht] at hmade
      cases hok.symm.trans hmade
  rw [ht] at hmade
  obtain ⟨keys, hkeys, hmake⟩ := exists_of_bind_eq_ok ht
  obtain ⟨rfl, -, -⟩ := Table.make_eq_ok_iff.1 hmake
  obtain ⟨-, htables⟩ := hmade
  rw [hkeys] at hmade'
  cases hmake' : (Except.ok keys : Except Fault (List Key)).bind (Table.make name' columns') with
  | ok t' =>
    rw [hmake'] at hmade'
    obtain ⟨hfault', htables'⟩ := hmade'
    obtain ⟨rfl, -, -⟩ := Table.make_eq_ok_iff.1 hmake'
    refine ⟨?_, fun _ => by rw [htables, htables']; rfl, fun _ => by rw [herrors, herrors']⟩
    simp [htables, htables', herrors, herrors', hfault']
  | error e =>
    rw [hmake'] at hmade'
    have hnot : ¬(name' = name ∧ columns' = columns) := by
      rintro ⟨rfl, rfl⟩
      cases hmake.symm.trans hmake'
    exact ⟨by simp [hmade', hnot], by simp [hmade'], by simp [hmade']⟩

/-- What the result shows of a visit comes as it was: the name of a table that is emitted or reported, and what
the columns of an emitted table depend on. -/
structure Kept (v v' : Visit) : Prop where
  name : v.isOmitted = false → v'.name = v.name
  columns : v.isEmitted = true → ∀ rows rows', v.described = .rows rows → v'.described = .rows rows' →
    List.Forall₂ Column.Kept rows rows'

/-- A visit that brings no fault brings the same, where some text cells come as bytes, exactly where what the
result shows of it comes as it was. -/
theorem agrees_survey {v v' : Visit} (h : v.Encoded v') (hok : v.survey.fault = none) :
    Survey.Agrees (v.Kept v') v.survey v'.survey := by
  obtain ⟨name, described, constrained⟩ := v
  obtain ⟨name', described', constrained'⟩ := v'
  obtain ⟨hdescribed, hconstrained⟩ := h
  cases hdescribed with
  | failure reason =>
    exact Survey.agrees_ofFailure ⟨fun hname => ⟨fun _ => hname, nofun⟩, fun h => h.name rfl⟩
  | @rows rows rows' hrows =>
    obtain ⟨columns, hcolumns⟩ := exists_columns hok
    obtain ⟨columns', hcolumns', hsame⟩ := Column.exists_mapM_ofRow_encoded hrows hcolumns
    cases hconstrained with
    | failure reason =>
      rw [survey_of_failure hcolumns, survey_of_failure hcolumns']
      refine Survey.agrees_ofFailure ⟨fun hname => ⟨fun _ => hname, fun hemitted => ?_⟩, fun h => h.name ?_⟩
      · cases rows <;> cases hemitted
      · cases rows <;> rfl
    | @rows constraintRows constraintRows' hconstraintRows =>
      obtain ⟨constraints, hconstraints⟩ := exists_constraints hcolumns hok
      have hconstraints' : constraintRows'.mapM ConstraintRow.ofRow = .ok constraints := by
        rw [← hconstraints]
        exact mapM_eq_of_forall₂ (hconstraintRows.imp fun _ _ hrow => ConstraintRow.ofRow_encoded hrow)
      cases hrows with
      | nil =>
        have hkept : Kept ⟨name, .rows [], .rows constraintRows⟩
            ⟨name', .rows [], .rows constraintRows'⟩ ↔ True := iff_true_intro ⟨nofun, nofun⟩
        rw [hkept]
        exact agrees_omitted hconstraints hconstraints'
      | @cons row row' rows rows' hrow hrest =>
        have hkept : Kept ⟨name, .rows (row :: rows), .rows constraintRows⟩
            ⟨name', .rows (row' :: rows'), .rows constraintRows'⟩ ↔ name' = name ∧ columns' = columns := by
          rw [hsame]
          constructor
          · exact fun h => ⟨h.name rfl, h.columns rfl _ _ rfl rfl⟩
          · rintro ⟨hname, hcolumns⟩
            refine ⟨fun _ => hname, fun _ _ _ hfirst hsecond => ?_⟩
            obtain rfl := Outcome.rows.inj hfirst
            obtain rfl := Outcome.rows.inj hsecond
            exact hcolumns
        rw [hkept]
        refine agrees_emitted hcolumns hcolumns' ?_ ?_ hconstraints hconstraints' hok
        · rintro rfl
          cases mapM_eq_ok_iff.1 hcolumns
        · rintro rfl
          cases mapM_eq_ok_iff.1 hcolumns'

/-- All cells of a visit that are shown come as they were. -/
structure SameShown (v v' : Visit) : Prop where
  name : v'.name = v.name
  columns : ∀ rows rows', v.described = .rows rows → v'.described = .rows rows' →
    List.Forall₂ Column.SameShown rows rows'

/-- A visit brings the same, faults, events and notes included, where the cells that are shown come as they
were, whatever other cells come as bytes. -/
theorem survey_eq_of_sameShown {v v' : Visit} (h : v.Encoded v') (hshown : v.SameShown v') :
    v'.survey = v.survey := by
  obtain ⟨name, described, constrained⟩ := v
  obtain ⟨name', described', constrained'⟩ := v'
  obtain ⟨hdescribed, hconstrained⟩ := h
  obtain ⟨hname, hcolumns⟩ := hshown
  obtain rfl : name' = name := hname
  cases hdescribed with
  | failure reason => rfl
  | @rows rows rows' hrows =>
    have hread : List.Forall₂ (fun row row' => Column.rowNotes row' = Column.rowNotes row ∧
        Column.ofRow row' = Column.ofRow row) rows rows' :=
      .mp (fun _ _ hrow hsame => ⟨Column.rowNotes_encoded hrow, Column.ofRow_eq_of_sameShown hrow hsame⟩)
        hrows (hcolumns _ _ rfl rfl)
    have hnotes := columnNotes_of_forall₂ hread
    have hmapM : rows'.mapM Column.ofRow = rows.mapM Column.ofRow :=
      mapM_eq_of_forall₂ (hread.imp fun _ _ h => h.2)
    cases hconstrained with
    | failure reason =>
      simp only [survey_mk, surveyTable, nextOutcome_cons, hnotes, hmapM]
    | @rows constraintRows constraintRows' hconstraintRows =>
      have hconstraints : constraintRows'.mapM ConstraintRow.ofRow =
          constraintRows.mapM ConstraintRow.ofRow :=
        mapM_eq_of_forall₂ (hconstraintRows.imp fun _ _ hrow => ConstraintRow.ofRow_encoded hrow)
      simp only [survey_mk, surveyTable, nextOutcome_cons, hnotes, hmapM, hconstraints]
      cases rows.mapM Column.ofRow <;> rfl

end Visit

/-! ### Whole databases -/

theorem nil_mem_encoded_iff {rows rows' : List Row} (h : List.Forall₂ (List.Forall₂ Cell.Encoded) rows rows') :
    [] ∈ rows' ↔ [] ∈ rows := by
  induction h with
  | nil => rfl
  | cons hrow _ ih =>
    cases hrow with
    | nil => simp
    | cons => simpa using ih

/-- A listed table: the cell that names it, and its visit. -/
structure Listed where
  cell : Cell
  visit : Visit

/-- The tables that cells name, the first statement about them being that of the number `cursor`. -/
def listedAt (outcomes : List Outcome) (cursor : Nat) : List Cell → List Listed
  | [] => []
  | cell :: rest =>
    ⟨cell, visitAt outcomes cursor cell.display⟩ ::
      listedAt outcomes (cursor + (visitAt outcomes cursor cell.display).statements.length) rest

theorem map_visit_listedAt (outcomes : List Outcome) (cursor : Nat) (cells : List Cell) :
    (listedAt outcomes cursor cells).map (·.visit) = visits outcomes cursor (cells.map Cell.display) := by
  induction cells generalizing cursor with
  | nil => rfl
  | cons cell cells ih =>
    rw [listedAt, List.map_cons, ih]
    rfl

theorem length_listedAt (outcomes : List Outcome) (cursor : Nat) (cells : List Cell) :
    (listedAt outcomes cursor cells).length = cells.length := by
  induction cells generalizing cursor with
  | nil => rfl
  | cons cell cells ih => rw [listedAt, List.length_cons, ih, List.length_cons]

/-- The tables that a database lists; none where they cannot be listed. -/
def Script.listed (script : Script) : List Listed :=
  match outcomeAt script.outcomes 0 with
  | .rows rows => listedAt script.outcomes 1 (rows.filterMap List.head?)
  | .failure _ => []

namespace Listed

/-- What the result shows of a listed table comes as it was: the cell that names it where it is emitted or
reported, and the cells on whose showing its columns depend where it is emitted. -/
structure Kept (x x' : Listed) : Prop where
  name : x.visit.isOmitted = false → x'.cell = x.cell
  columns : x.visit.isEmitted = true → ∀ rows rows', x.visit.described = .rows rows →
    x'.visit.described = .rows rows' → List.Forall₂ Column.Kept rows rows'

/-- All cells of a listed table that are shown come as they were. -/
structure SameShown (x x' : Listed) : Prop where
  name : x'.cell = x.cell
  columns : ∀ rows rows', x.visit.described = .rows rows → x'.visit.described = .rows rows' →
    List.Forall₂ Column.SameShown rows rows'

/-- A listed table some of whose text cells are delivered as bytes. -/
structure Encoded (x x' : Listed) : Prop where
  cell : x.cell.Encoded x'.cell
  visit : x.visit.Encoded x'.visit
  named : x.visit.name = x.cell.display
  named' : x'.visit.name = x'.cell.display

theorem Encoded.kept_iff {x x' : Listed} (h : x.Encoded x') : x.visit.Kept x'.visit ↔ x.Kept x' := by
  have hname : x'.visit.name = x.visit.name ↔ x'.cell = x.cell := by
    rw [h.named, h.named', h.cell.display_eq_iff]
  exact ⟨fun hk => ⟨fun ho => hname.1 (hk.name ho), hk.columns⟩,
    fun hk => ⟨fun ho => hname.2 (hk.name ho), hk.columns⟩⟩

theorem Encoded.sameShown {x x' : Listed} (h : x.Encoded x') (hshown : x.SameShown x') :
    x.visit.SameShown x'.visit :=
  ⟨by rw [h.named, h.named', hshown.name], hshown.columns⟩

variable {xs xs' : List Listed}

theorem surveyEach_eq_of_sameShown (h : List.Forall₂ Encoded xs xs') (hshown : List.Forall₂ SameShown xs xs') :
    Visit.surveyEach (xs'.map (·.visit)) = Visit.surveyEach (xs.map (·.visit)) := by
  induction h with
  | nil => rfl
  | cons hfirst _ ih =>
    obtain ⟨hsame, hrest⟩ := List.forall₂_cons.1 hshown
    rw [List.map_cons, List.map_cons, Visit.surveyEach, Visit.surveyEach, ih hrest,
      Visit.survey_eq_of_sameShown hfirst.visit (hfirst.sameShown hsame)]

/-- What visits bring one after another is compared visit by visit. -/
theorem agrees_surveyEach (h : List.Forall₂ Encoded xs xs')
    (hok : (Visit.surveyEach (xs.map (·.visit))).fault = none) :
    Survey.Agrees (List.Forall₂ Kept xs xs') (Visit.surveyEach (xs.map (·.visit)))
      (Visit.surveyEach (xs'.map (·.visit))) := by
  induction h with
  | nil => exact ⟨by simp [Visit.surveyEach], fun _ => rfl, fun _ => rfl⟩
  | @cons x x' xs xs' hfirst _ ih =>
    rw [List.map_cons, Visit.surveyEach] at hok ⊢
    obtain ⟨hx, hxs⟩ := Survey.fault_append_eq_none_iff.1 hok
    rw [List.forall₂_cons, ← hfirst.kept_iff]
    exact (Visit.agrees_survey hfirst.visit hx).append hx (ih hxs)

end Listed

/-- A database some of whose text cells are delivered as bytes. -/
structure Script.Encoded (script script' : Script) : Prop where
  engine : script'.engineError = script.engineError
  connection : script'.connectError = script.connectError
  outcomes : List.Forall₂ Outcome.Encoded script.outcomes script'.outcomes

theorem encoded_listedAt {outcomes outcomes' : List Outcome} {cells cells' : List Cell}
    (houtcomes : List.Forall₂ Outcome.Encoded outcomes outcomes') (h : List.Forall₂ Cell.Encoded cells cells')
    (cursor : Nat) :
    List.Forall₂ Listed.Encoded (listedAt outcomes cursor cells) (listedAt outcomes' cursor cells') := by
  induction h generalizing cursor with
  | nil => exact .nil
  | @cons cell cell' _ _ hcell _ ih =>
    have hvisit : (visitAt outcomes cursor cell.display).Encoded (visitAt outcomes' cursor cell'.display) :=
      ⟨outcomeAt_encoded houtcomes cursor, outcomeAt_encoded houtcomes (cursor + 1)⟩
    have hlength : (visitAt outcomes' cursor cell'.display).statements.length =
        (visitAt outcomes cursor cell.display).statements.length :=
      hvisit.length_statements
    rw [listedAt, listedAt, hlength]
    exact .cons ⟨hcell, hvisit, rfl, rfl⟩ (ih _)

theorem encoded_heads {rows rows' : List Row} (h : List.Forall₂ (List.Forall₂ Cell.Encoded) rows rows') :
    List.Forall₂ Cell.Encoded (rows.filterMap List.head?) (rows'.filterMap List.head?) := by
  induction h with
  | nil => exact .nil
  | cons hrow _ ih =>
    cases hrow with
    | nil => exact ih
    | cons hcell _ => exact .cons hcell ih

/-- The survey of a database that lists its tables is what their visits bring. -/
theorem surveyAll_of_listed {outcomes : List Outcome} {rows : List Row} (h : outcomeAt outcomes 0 = .rows rows) :
    surveyAll outcomes =
      if [] ∈ rows then { events := [.execute .showTables], fault := some .emptyRow }
      else
        let tables := listedAt outcomes 1 (rows.filterMap List.head?)
        listing tables.length ++ Visit.surveyEach (tables.map (·.visit)) := by
  have hnames : listedNames rows = (rows.filterMap List.head?).map Cell.display := List.map_filterMap.symm
  simp only [surveyAll_of_rows h, hnames, map_visit_listedAt, length_listedAt, surveyTables_drop,
    List.length_map]

/-- The whole survey is the same, where the cells that are shown come as they were. -/
theorem surveyAll_eq_of_sameShown {script script' : Script} (h : script.Encoded script')
    (hshown : List.Forall₂ Listed.SameShown script.listed script'.listed) :
    surveyAll script'.outcomes = surveyAll script.outcomes := by
  have hfirst := outcomeAt_encoded h.outcomes 0
  rw [Script.listed, Script.listed] at hshown
  generalize hr : outcomeAt script.outcomes 0 = o at hfirst hshown
  generalize hr' : outcomeAt script'.outcomes 0 = o' at hfirst hshown
  cases hfirst with
  | failure reason => rw [surveyAll_of_failure hr, surveyAll_of_failure hr']
  | @rows rows rows' hrows =>
    have hlisted := encoded_listedAt h.outcomes (encoded_heads hrows) 1
    rw [surveyAll_of_listed hr, surveyAll_of_listed hr']
    simp only [nil_mem_encoded_iff hrows, hlisted.length_eq,
      Listed.surveyEach_eq_of_sameShown hlisted hshown]

/-- The whole survey is compared table by table. -/
theorem agrees_surveyAll {script script' : Script} (h : script.Encoded script')
    (hok : (surveyAll script.outcomes).fault = none) :
    Survey.Agrees (List.Forall₂ Listed.Kept script.listed script'.listed)
      (surveyAll script.outcomes) (surveyAll script'.outcomes) := by
  have hfirst := outcomeAt_encoded h.outcomes 0
  rw [Script.listed, Script.listed]
  generalize hr : outcomeAt script.outcomes 0 = o at hfirst
  generalize hr' : outcomeAt script'.outcomes 0 = o' at hfirst
  cases hfirst with
  | failure reason =>
    rw [surveyAll_of_failure hr, surveyAll_of_failure hr']
    exact Survey.agrees_ofFailure (iff_of_true rfl .nil)
  | @rows rows rows' hrows =>
    have hlisted := encoded_listedAt h.outcomes (encoded_heads hrows) 1
    rw [surveyAll_of_listed hr] at hok ⊢
    rw [surveyAll_of_listed hr']
    by_cases hempty : [] ∈ rows
    · rw [if_pos hempty] at hok
      cases hok
    · rw [if_neg hempty] at hok ⊢
      rw [if_neg (mt (nil_mem_encoded_iff hrows).1 hempty)]
      have hfront : Survey.Agrees True (listing (listedAt script.outcomes 1 (rows.filterMap List.head?)).length)
          (listing (listedAt script'.outcomes 1 (rows'.filterMap List.head?)).length) :=
        ⟨by simp [listing], fun _ => rfl, fun _ => rfl⟩
      have hvisits := Listed.agrees_surveyEach hlisted (Survey.fault_append_eq_none_iff.1 hok).2
      have hboth := hfront.append rfl hvisits
      rwa [true_and] at hboth

/-- Reading a database ends well where there is an engine, it connects, and the survey ends without a fault; the
result is what the survey brought. -/
theorem inspect_result_eq_ok_iff {url : LooseText} {script : Script} {ownEngine : Bool} {r : Introspection} :
    (inspect url script ownEngine).result = .ok r ↔
      (if ownEngine then script.engineError else none) = none ∧ script.connectError = none ∧
        (surveyAll script.outcomes).fault = none ∧ (surveyAll script.outcomes).tables = r.tables ∧
        (surveyAll script.outcomes).errors = r.errors := by
  obtain ⟨tables, errors⟩ := r
  rw [inspect]
  cases hengine : (if ownEngine then script.engineError else none : Option LooseText) with
  | some reason => simp
  | none =>
    cases hconnect : script.connectError with
    | some reason => simp
    | none =>
      generalize surveyAll script.outcomes = s
      obtain ⟨found, reports, events, notes, fault⟩ := s
      cases fault <;> simp

/-- Whatever text cells of a database are delivered as bytes: where the cells that are shown come as they were,
reading the database is the same, faults, events and notes included; and where it ended well, it ends well with
the same result exactly if the cells on whose showing the result depends come as they were. -/
theorem inspect_encoded (url : LooseText) {script script' : Script} (ownEngine : Bool)
    (h : script.Encoded script') :
    (List.Forall₂ Listed.SameShown script.listed script'.listed →
      inspect url script' ownEngine = inspect url script ownEngine) ∧
    ∀ r, (inspect url script ownEngine).result = .ok r →
      ((inspect url script' ownEngine).result = .ok r ↔
        List.Forall₂ Listed.Kept script.listed script'.listed) := by
  constructor
  · intro hshown
    rw [inspect, inspect, h.engine, h.connection, surveyAll_eq_of_sameShown h hshown]
  · intro r hr
    obtain ⟨hengine, hconnect, hfault, htables, herrors⟩ := inspect_result_eq_ok_iff.1 hr
    rw [inspect_result_eq_ok_iff, h.engine, h.connection, ← htables, ← herrors,
      ← (agrees_surveyAll h hfault).same]
    exact ⟨fun hsame => hsame.2.2, fun hsame => ⟨hengine, hconnect, hsame⟩⟩

/-- A database of one table whose cells are all texts. -/
def textCatalog : Script where
  outcomes := [
    .rows [[.text "author"]],
    .rows [[.text "id", .text "int", .text "NO", .text "PRI", .null, .text ""]],
    .rows [[.text "u", .text "UNIQUE", .text "id"]]]

/-- What is read from it. -/
def textResult : Introspection :=
  ⟨[⟨"author", [⟨"id", "int", false, .primary, none, ""⟩], [.unique ⟨"u", ["id"]⟩]⟩], []⟩

theorem inspect_textCatalog : (inspect "mysql://host/shop" textCatalog true).result = .ok textResult :=
  eq_ok_of_mem_toOption (by decide +kernel)

/-- The bytes of a text. -/
def bytesOf (s : String) : Cell := .bytes (Text.encode s.toList)

/-- The database with the bytes of all texts but the names of the table and of its column. -/
def bytesCatalog : Script where
  outcomes := [
    .rows [[.text "author"]],
    .rows [[.text "id", bytesOf "int", bytesOf "NO", bytesOf "PRI", .null, bytesOf ""]],
    .rows [[bytesOf "u", bytesOf "UNIQUE", bytesOf "id"]]]

theorem inspect_encoded_bytesCatalog : textCatalog.Encoded bytesCatalog ∧
    (inspect "mysql://host/shop" textCatalog true).result = .ok textResult ∧
    (inspect "mysql://host/shop" bytesCatalog true).result = .ok textResult := by
  have hbytes : ∀ s, Cell.Encoded (.text s) (bytesOf s) := .bytes
  have hencoded : textCatalog.Encoded bytesCatalog := by
    refine ⟨rfl, rfl, .cons (.rows ?_) (.cons (.rows ?_) (.cons (.rows ?_) .nil))⟩
    · exact .cons (.cons (.same _) .nil) .nil
    · exact .cons (.cons (.same _) (.cons (hbytes _) (.cons (hbytes _) (.cons (hbytes _) (.cons (.same _)
        (.cons (hbytes _) .nil)))))) .nil
    · exact .cons (.cons (hbytes _) (.cons (hbytes _) (.cons (hbytes _) .nil))) .nil
  have hkept : List.Forall₂ Listed.Kept textCatalog.listed bytesCatalog.listed := by
    refine .cons ⟨fun _ => rfl, fun _ rows rows' hrows hrows' => ?_⟩ .nil
    obtain rfl := Outcome.rows.inj hrows
    obtain rfl := Outcome.rows.inj hrows'
    refine .cons ⟨rfl, fun s hs hyes => ?_⟩ .nil
    obtain rfl := Cell.text.inj (Option.some.inj hs)
    exact absurd hyes (by decide)
  exact ⟨hencoded, inspect_textCatalog,
    ((inspect_encoded _ true hencoded).2 _ inspect_textCatalog).2 hkept⟩

/-- The database with the bytes of the name of the column. -/
def bytesName : Script where
  outcomes := [
    .rows [[.text "author"]],
    .rows [[bytesOf "id", .text "int", .text "NO", .text "PRI", .null, .text ""]],
    .rows [[.text "u", .text "UNIQUE", .text "id"]]]

/-- The column gets a name that shows the bytes. -/
theorem inspect_encoded_bytesName_ne : textCatalog.Encoded bytesName ∧
    (inspect "mysql://host/shop" textCatalog true).result = .ok textResult ∧
    ∃ r, (inspect "mysql://host/shop" bytesName true).result = .ok r ∧
      r.tables.map (fun t => t.columns.map (·.field)) = [["b'id'"]] ∧ r ≠ textResult := by
  refine ⟨⟨rfl, rfl, .cons (.rows ?_) (.cons (.rows ?_) (.cons (.rows ?_) .nil))⟩, inspect_textCatalog,
    ⟨[⟨"author", [⟨"b'id'", "int", false, .primary, none, ""⟩], [.unique ⟨"u", ["id"]⟩]⟩], []⟩,
    eq_ok_of_mem_toOption (by decide +kernel), rfl, by decide⟩
  · exact .cons (.cons (.same _) .nil) .nil
  · exact .cons (.cons (.bytes _) (.cons (.same _) (.cons (.same _) (.cons (.same _) (.cons (.same _)
      (.cons (.same _) .nil)))))) .nil
  · exact .cons (.cons (.same _) (.cons (.same _) (.cons (.same _) .nil))) .nil

end CatalogSync
