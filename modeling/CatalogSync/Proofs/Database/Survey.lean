import CatalogSync.Database.Survey
import CatalogSync.Proofs.Catalog.Table

/-!
What a survey accounts for. Each listed table is visited: its description and its constraints are
asked for, and the outcomes that come back decide whether the table is emitted, reported or left
out. The script has one outcome for each statement, so a visit that fails at once shifts the
outcomes of all that follow; `visits` says which outcomes belong to which table.
-/

namespace CatalogSync

/-- The outcome of the statement of a number, the first one having number zero; once the script is
used up, no rows. -/
def outcomeAt (outcomes : List Outcome) (n : Nat) : Outcome := outcomes.getD n (.rows [])

theorem nextOutcome_drop (outcomes : List Outcome) (n : Nat) :
    nextOutcome (outcomes.drop n) = (outcomeAt outcomes n, outcomes.drop (n + 1)) := by
  rw [outcomeAt, List.getD_eq_getElem?_getD]
  cases h : outcomes.drop n with
  | nil =>
    have hlength := List.drop_eq_nil_iff.1 h
    rw [List.getElem?_eq_none hlength, List.drop_eq_nil_of_le (by omega)]
    rfl
  | cons o rest =>
    have hget : outcomes[n]? = some o := by
      rw [← List.head?_drop, h]
      rfl
    have htail : outcomes.drop (n + 1) = rest := by
      rw [← List.tail_drop, h]
      rfl
    rw [hget, htail]
    rfl

/-- A listed table and the outcomes of the statements about it; where its description fails, its
constraints are not asked for, and `constrained` does not count. -/
structure Visit where
  name : String
  described : Outcome
  constrained : Outcome
deriving DecidableEq, Repr

namespace Visit

/-- The statements of a visit. -/
def statements (v : Visit) : List Statement :=
  match v.described with
  | .failure _ => [.describe v.name]
  | .rows _ => [.describe v.name, .constraints v.name]

/-- The text of the statement of the visit that failed. -/
def failure? (v : Visit) : Option String :=
  match v.described, v.constrained with
  | .failure reason, _ => some reason
  | .rows _, .failure reason => some reason
  | .rows _, .rows _ => none

/-- Both statements brought rows, and the table has columns. -/
def isEmitted (v : Visit) : Bool :=
  match v.described, v.constrained with
  | .rows (_ :: _), .rows _ => true
  | _, _ => false

/-- A statement of the visit failed. -/
def isReported (v : Visit) : Bool := v.failure?.isSome

/-- Both statements brought rows, and the table has no columns. -/
def isOmitted (v : Visit) : Bool :=
  match v.described, v.constrained with
  | .rows [], .rows _ => true
  | _, _ => false

/-- What is reported about a visit. -/
def report? (v : Visit) : Option TableReport := v.failure?.map fun reason => ⟨v.name, reason⟩

/-- The rows of a visit are those of columns with distinct names and of constraints whose names are
filled. -/
structure Decodes (v : Visit) : Prop where
  columns : ∀ rows, v.described = .rows rows →
    ∃ columns, rows.mapM Column.ofRow = .ok columns ∧ (columns.map (·.field)).Nodup
  constraints : ∀ rows constraintRows, v.described = .rows rows →
    v.constrained = .rows constraintRows →
      ∃ constraints, constraintRows.mapM ConstraintRow.ofRow = .ok constraints ∧
        ∀ r ∈ constraints, r.NamesFilled

/-- A table with the name of a visit, the columns of its description and the keys of its
constraints. -/
def Gives (v : Visit) (t : Table) : Prop :=
  t.name = v.name ∧ ∃ rows constraintRows constraints,
    v.described = .rows rows ∧ v.constrained = .rows constraintRows ∧
      rows.mapM Column.ofRow = .ok t.columns ∧
      constraintRows.mapM ConstraintRow.ofRow = .ok constraints ∧
      Key.ofRows constraints = .ok t.keys

/-- A visit ends in one way. -/
theorem isEmitted_toNat_add (v : Visit) :
    v.isEmitted.toNat + v.isReported.toNat + v.isOmitted.toNat = 1 := by
  obtain ⟨name, described, constrained⟩ := v
  cases described with
  | failure reason => rfl
  | rows rows =>
    cases constrained with
    | failure reason => cases rows <;> rfl
    | rows constraintRows => cases rows <;> rfl

end Visit

/-- The visit of a listed table whose first statement is that of the number `cursor`. -/
def visitAt (outcomes : List Outcome) (cursor : Nat) (name : String) : Visit :=
  ⟨name, outcomeAt outcomes cursor, outcomeAt outcomes (cursor + 1)⟩

/-- The visits of listed tables, the first statement being that of the number `cursor`. -/
def visits (outcomes : List Outcome) (cursor : Nat) : List String → List Visit
  | [] => []
  | name :: rest =>
    visitAt outcomes cursor name ::
      visits outcomes (cursor + (visitAt outcomes cursor name).statements.length) rest

/-- The statements among the events of a session. -/
def executed (events : List Event) : List Statement :=
  events.filterMap fun
    | .execute statement => some statement
    | _ => none

namespace Survey

variable {s t : Survey}

theorem append_of_fault_eq_none (h : s.fault = none) : s ++ t = {
    tables := s.tables ++ t.tables
    errors := s.errors ++ t.errors
    events := s.events ++ t.events
    notes := s.notes ++ t.notes
    fault := t.fault } := by
  change append s t = _
  rw [append, h]

theorem append_of_fault_eq_some {e : Fault} (h : s.fault = some e) : s ++ t = s := by
  change append s t = _
  rw [append, h]

end Survey

/-- A survey that brought what its visits give, and nothing else. -/
structure Accounts (vs : List Visit) (s : Survey) : Prop where
  fault : s.fault = none
  tables : List.Forall₂ Visit.Gives (vs.filter (·.isEmitted)) s.tables
  errors : s.errors = vs.filterMap (·.report?)
  statements : executed s.events = vs.flatMap (·.statements)

theorem Accounts.nil : Accounts [] {} := ⟨rfl, .nil, rfl, rfl⟩

theorem Accounts.append {vs ws : List Visit} {s t : Survey} (hs : Accounts vs s)
    (ht : Accounts ws t) : Accounts (vs ++ ws) (s ++ t) := by
  rw [Survey.append_of_fault_eq_none hs.fault]
  refine ⟨ht.fault, ?_, ?_, ?_⟩
  · rw [List.filter_append]
    exact List.rel_append hs.tables ht.tables
  · rw [List.filterMap_append, hs.errors, ht.errors]
  · rw [List.flatMap_append, ← hs.statements, ← ht.statements]
    exact List.filterMap_append

/-- The survey of one table brings what its visit gives, and takes the outcomes of its statements. -/
theorem accounts_surveyTable {outcomes : List Outcome} {cursor : Nat} {name : String}
    (hname : name ≠ "") (h : (visitAt outcomes cursor name).Decodes) :
    Accounts [visitAt outcomes cursor name] (surveyTable name (outcomes.drop cursor)).1 ∧
      (surveyTable name (outcomes.drop cursor)).2 =
        outcomes.drop (cursor + (visitAt outcomes cursor name).statements.length) := by
  unfold visitAt at h ⊢
  rw [surveyTable, nextOutcome_drop]
  cases hd : outcomeAt outcomes cursor with
  | failure reason => exact ⟨⟨rfl, .nil, rfl, rfl⟩, rfl⟩
  | rows rows =>
    obtain ⟨columns, hcolumns, hdistinct⟩ := h.columns rows hd
    simp only [hcolumns, nextOutcome_drop]
    cases hc : outcomeAt outcomes (cursor + 1) with
    | failure reason => exact ⟨⟨rfl, by cases rows <;> exact .nil, rfl, rfl⟩, rfl⟩
    | rows constraintRows =>
      obtain ⟨constraints, hconstraints, hnames⟩ := h.constraints rows constraintRows hd hc
      obtain ⟨keys, hkeys⟩ : ∃ keys, Key.ofRows constraints = .ok keys := ⟨_, Key.ofRows_eq_ok hnames⟩
      cases rows with
      | nil =>
        obtain rfl : [] = columns := Except.ok.inj hcolumns
        simp only [hconstraints]
        exact ⟨⟨rfl, .nil, rfl, rfl⟩, rfl⟩
      | cons row rows =>
        have hne : columns ≠ [] := by
          rintro rfl
          cases mapM_eq_ok_iff.1 hcolumns
        have hmake := Table.make_eq_ok keys hname hne hdistinct
        have hgives : Visit.Gives
            ⟨name, .rows (row :: rows), .rows constraintRows⟩ ⟨name, columns, keys⟩ :=
          ⟨rfl, row :: rows, constraintRows, constraints, rfl, rfl, hcolumns, hconstraints, hkeys⟩
        simp only [hconstraints, bind, Except.bind, if_neg hne, hkeys, hmake, pure, Except.pure]
        exact ⟨⟨rfl, .cons hgives .nil, rfl, rfl⟩, rfl⟩

/-- The survey of listed tables brings what their visits give. -/
theorem accounts_surveyTables {outcomes : List Outcome} {names : List String} {cursor : Nat}
    (hnames : ∀ name ∈ names, name ≠ "") (h : ∀ v ∈ visits outcomes cursor names, v.Decodes) :
    Accounts (visits outcomes cursor names) (surveyTables names (outcomes.drop cursor)) := by
  induction names generalizing cursor with
  | nil => exact Accounts.nil
  | cons name names ih =>
    obtain ⟨hname, hrest⟩ := List.forall_mem_cons.1 hnames
    rw [visits] at h ⊢
    obtain ⟨hfirst, hlater⟩ := List.forall_mem_cons.1 h
    obtain ⟨haccounts, houtcomes⟩ := accounts_surveyTable hname hfirst
    rw [surveyTables]
    simp only [houtcomes]
    exact haccounts.append (ih hrest hlater)

/-! ### The whole database -/

theorem map_name_visits (outcomes : List Outcome) (cursor : Nat) (names : List String) :
    (visits outcomes cursor names).map (·.name) = names := by
  induction names generalizing cursor with
  | nil => rfl
  | cons name names ih =>
    rw [visits, List.map_cons, ih]
    rfl

/-- A visit takes the outcomes behind those of all statements that were sent before it. -/
theorem eq_visitAt_of_visits {outcomes : List Outcome} {cursor : Nat} {names : List String}
    {before after : List Visit} {v : Visit}
    (h : visits outcomes cursor names = before ++ v :: after) :
    v = visitAt outcomes (cursor + (before.flatMap (·.statements)).length) v.name := by
  induction names generalizing cursor before with
  | nil => exact absurd h.symm (by simp [visits])
  | cons name names ih =>
    rw [visits] at h
    cases before with
    | nil =>
      obtain ⟨rfl, -⟩ := List.cons.inj h
      rfl
    | cons first before =>
      obtain ⟨rfl, hrest⟩ := List.cons.inj h
      rw [List.flatMap_cons, List.length_append, ← Nat.add_assoc]
      exact ih hrest

/-- The tables that rows list: the first cell of each row. -/
def listedNames (rows : List Row) : List String :=
  rows.filterMap fun row => row.head?.map Cell.display

theorem tableNames_eq (rows : List Row) :
    tableNames rows = if [] ∈ rows then .error .emptyRow else .ok (listedNames rows) := by
  induction rows with
  | nil => rfl
  | cons row rows ih =>
    cases row with
    | nil => rw [tableNames, if_pos List.mem_cons_self]
    | cons cell row =>
      rw [tableNames, ih]
      by_cases hempty : [] ∈ rows
      · rw [if_pos hempty, if_pos (List.mem_cons_of_mem _ hempty)]
        rfl
      · rw [if_neg hempty, if_neg (by simpa using hempty)]
        rfl

/-- What stands in front of the visits of listed tables. -/
def listing (count : Nat) : Survey where
  events := [.execute .showTables]
  notes := [⟨.info, surveySource, s!"Introspecting {count} table(s)."⟩]

theorem surveyAll_of_failure {outcomes : List Outcome} {reason : String}
    (h : outcomeAt outcomes 0 = .failure reason) :
    surveyAll outcomes = .ofFailure [.execute .showTables] [] everyTable reason := by
  have hnext : nextOutcome outcomes = (.failure reason, outcomes.drop 1) := by
    rw [← h]
    exact nextOutcome_drop outcomes 0
  rw [surveyAll, hnext]

/-- A database whose tables are listed is surveyed table by table; a row without a cell lists none. -/
theorem surveyAll_of_rows {outcomes : List Outcome} {rows : List Row} (h : outcomeAt outcomes 0 = .rows rows) :
    surveyAll outcomes =
      if [] ∈ rows then { events := [.execute .showTables], fault := some .emptyRow }
      else listing (listedNames rows).length ++ surveyTables (listedNames rows) (outcomes.drop 1) := by
  have hnext : nextOutcome outcomes = (.rows rows, outcomes.drop 1) := by
    rw [← h]
    exact nextOutcome_drop outcomes 0
  rw [surveyAll, hnext]
  simp only [tableNames_eq]
  by_cases hempty : [] ∈ rows
  · simp only [if_pos hempty]
  · simp only [if_neg hempty]
    rfl

/-- The rows that a script delivers can be read: every listed table has a name, and every visit
decodes. -/
structure Delivers (outcomes : List Outcome) : Prop where
  listed : ∀ rows, outcomeAt outcomes 0 = .rows rows →
    ∀ row ∈ rows, ∃ cell ∈ row.head?, cell.display ≠ ""
  visited : ∀ rows, outcomeAt outcomes 0 = .rows rows →
    ∀ v ∈ visits outcomes 1 (listedNames rows), v.Decodes

/-- What was read accounts for every visit. Each listed table is visited, in the order of the list.
It takes the outcomes behind those of the statements sent before it, one where its description fails
and two otherwise. It ends in one way: emitted with its own columns and keys, reported with the
reason of the failure, or left out; what is emitted and what is reported are in the order of the
visits. -/
structure AccountsFor (outcomes : List Outcome) (names : List String) (vs : List Visit)
    (r : Introspection) (sent : List Statement) : Prop where
  names : vs.map (·.name) = names
  sent : sent = .showTables :: vs.flatMap (·.statements)
  outcomes : ∀ before v after, vs = before ++ v :: after →
    v = visitAt outcomes (1 + (before.flatMap (·.statements)).length) v.name
  consumed : ∀ v ∈ vs, (∃ reason, v.described = .failure reason) ∧ v.statements.length = 1 ∨
    (∃ rows, v.described = .rows rows) ∧ v.statements.length = 2
  oneWay : ∀ v ∈ vs, v.isEmitted.toNat + v.isReported.toNat + v.isOmitted.toNat = 1
  tables : List.Forall₂ Visit.Gives (vs.filter (·.isEmitted)) r.tables
  errors : r.errors = vs.filterMap (·.report?)

theorem executed_append (l r : List Event) : executed (l ++ r) = executed l ++ executed r :=
  List.filterMap_append

/-- The survey of a database whose rows can be read ends without a fault. -/
theorem accounts_surveyAll {outcomes : List Outcome} (h : Delivers outcomes) :
    (surveyAll outcomes).fault = none ∧
      (∀ reason, outcomeAt outcomes 0 = .failure reason →
        (surveyAll outcomes).tables = [] ∧
          (surveyAll outcomes).errors = [⟨everyTable, reason⟩] ∧
          executed (surveyAll outcomes).events = [.showTables]) ∧
      ∀ rows, outcomeAt outcomes 0 = .rows rows →
        AccountsFor outcomes (listedNames rows) (visits outcomes 1 (listedNames rows))
          ⟨(surveyAll outcomes).tables, (surveyAll outcomes).errors⟩
          (executed (surveyAll outcomes).events) := by
  cases hfirst : outcomeAt outcomes 0 with
  | failure reason =>
    rw [surveyAll_of_failure hfirst]
    refine ⟨rfl, fun other hother => ?_, fun rows hrows => ?_⟩
    · obtain rfl := Outcome.failure.inj hother
      exact ⟨rfl, rfl, rfl⟩
    · cases hrows
  | rows rows =>
    have hnames : ∀ name ∈ listedNames rows, name ≠ "" := by
      intro name hname
      obtain ⟨row, hrow, hdisplay⟩ := List.mem_filterMap.1 hname
      obtain ⟨cell, hcell, hne⟩ := h.listed rows hfirst row hrow
      rw [hcell] at hdisplay
      obtain rfl := Option.some.inj hdisplay
      exact hne
    have hfilled : [] ∉ rows := by
      intro hempty
      obtain ⟨cell, hcell, -⟩ := h.listed rows hfirst [] hempty
      cases hcell
    have haccounts := accounts_surveyTables hnames (h.visited rows hfirst)
    have hall := surveyAll_of_rows hfirst
    rw [if_neg hfilled] at hall
    refine ⟨?_, fun reason hreason => ?_, fun other hother => ?_⟩
    · rw [hall]
      exact haccounts.fault
    · cases hreason
    · obtain rfl := Outcome.rows.inj hother
      rw [hall]
      refine ⟨map_name_visits _ _ _, ?_, fun before v after => eq_visitAt_of_visits, fun v _ => ?_,
        fun v _ => v.isEmitted_toNat_add, ?_, ?_⟩
      · exact congrArg (Statement.showTables :: ·) haccounts.statements
      · rw [Visit.statements]
        cases v.described with
        | failure reason => exact Or.inl ⟨⟨reason, rfl⟩, rfl⟩
        | rows rows => exact Or.inr ⟨⟨rows, rfl⟩, rfl⟩
      · exact haccounts.tables
      · exact haccounts.errors

/-- Reading a database that connects and whose rows can be read accounts for every listed table,
whatever statements fail; where the tables cannot be listed, that alone is reported. -/
theorem inspect_accountsFor (url : String) {script : Script} {ownEngine : Bool}
    (hengine : ownEngine = true → script.engineError = none) (hconnect : script.connectError = none)
    (h : Delivers script.outcomes) :
    ∃ r, (inspect url script ownEngine).result = .ok r ∧
      (∀ reason, outcomeAt script.outcomes 0 = .failure reason →
        r.tables = [] ∧ r.errors = [⟨everyTable, reason⟩] ∧
          executed (inspect url script ownEngine).events = [.showTables]) ∧
      ∀ rows, outcomeAt script.outcomes 0 = .rows rows →
        AccountsFor script.outcomes (listedNames rows) (visits script.outcomes 1 (listedNames rows)) r
          (executed (inspect url script ownEngine).events) := by
  obtain ⟨hfault, hfailure, hrows⟩ := accounts_surveyAll h
  have hmade : (if ownEngine then script.engineError else none) = none := by
    split
    next hown => exact hengine hown
    next => rfl
  have hresult : (inspect url script ownEngine).result =
      .ok ⟨(surveyAll script.outcomes).tables, (surveyAll script.outcomes).errors⟩ := by
    rw [inspect, hmade, hconnect]
    simp only [hfault]
  have hevents : executed (inspect url script ownEngine).events =
      executed (surveyAll script.outcomes).events := by
    have hquiet : executed (if ownEngine then [.createEngine (normaliseUrl url)] else []) = [] ∧
        executed (if ownEngine then [.dispose] else []) = [] := by
      cases ownEngine <;> exact ⟨rfl, rfl⟩
    rw [inspect, hmade, hconnect]
    simp only [hfault, executed_append, hquiet]
    simp [executed]
  rw [hevents]
  exact ⟨_, hresult, hfailure, hrows⟩

/-- A script of four tables: the second cannot be described, the third has no columns, and the
constraints of the fourth cannot be read. -/
def interrupted : Script where
  outcomes := [
    .rows [[.text "author"], [.text "book"], [.text "draft"], [.text "loan"]],
    .rows [[.text "id", .text "int", .text "NO", .text "PRI", .null, .text ""]],
    .rows [[.text "u", .text "UNIQUE", .text "id"]],
    .failure "gone",
    .rows [],
    .rows [],
    .rows [[.text "day", .text "date", .text "YES", .text "", .null, .text ""]],
    .failure "locked"]

theorem delivers_interrupted : Delivers interrupted.outcomes := by
  refine ⟨fun rows hrows => ?_, fun rows hrows => ?_⟩
  · obtain rfl := Outcome.rows.inj hrows
    simp [Cell.display]
  · obtain rfl := Outcome.rows.inj hrows
    intro v hv
    have hvisits : v ∈ [
        (⟨"author", interrupted.outcomes[1], interrupted.outcomes[2]⟩ : Visit),
        ⟨"book", .failure "gone", .rows []⟩, ⟨"draft", .rows [], .rows []⟩,
        ⟨"loan", interrupted.outcomes[6], .failure "locked"⟩] := hv
    simp only [List.mem_cons, List.not_mem_nil, or_false] at hvisits
    rcases hvisits with rfl | rfl | rfl | rfl
    · refine ⟨fun rows hrows => ?_, fun rows constraintRows hrows hc => ?_⟩
      · obtain rfl := Outcome.rows.inj hrows
        exact ⟨_, rfl, by decide⟩
      · obtain rfl := Outcome.rows.inj hc
        exact ⟨_, rfl, by decide⟩
    · refine ⟨fun rows hrows => ?_, fun rows constraintRows hrows hc => ?_⟩
      · cases hrows
      · cases hrows
    · refine ⟨fun rows hrows => ?_, fun rows constraintRows hrows hc => ?_⟩
      · obtain rfl := Outcome.rows.inj hrows
        exact ⟨_, rfl, by decide⟩
      · obtain rfl := Outcome.rows.inj hc
        exact ⟨_, rfl, by decide⟩
    · refine ⟨fun rows hrows => ?_, fun rows constraintRows hrows hc => ?_⟩
      · obtain rfl := Outcome.rows.inj hrows
        exact ⟨_, rfl, by decide⟩
      · cases hc

theorem inspect_interrupted : Delivers interrupted.outcomes ∧
    ∃ r, (inspect "mysql://host/shop" interrupted true).result = .ok r ∧
      r.tables.map (·.name) = ["author"] ∧
      r.errors = [⟨"book", "gone"⟩, ⟨"loan", "locked"⟩] := by
  obtain ⟨r, hr, -, hrows⟩ :=
    inspect_accountsFor "mysql://host/shop" (fun _ => rfl) rfl delivers_interrupted
  have haccounts := hrows _ rfl
  have htables : r.tables.map (·.name) = ["author"] := by
    obtain ⟨t, rest, hgives, hrest, htables⟩ := List.forall₂_cons_left_iff.1 haccounts.tables
    obtain rfl := List.forall₂_nil_left_iff.1 hrest
    rw [htables]
    exact congrArg (fun name => [name]) hgives.1
  exact ⟨delivers_interrupted, r, hr, htables, haccounts.errors⟩

end CatalogSync
