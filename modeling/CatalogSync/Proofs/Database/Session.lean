import CatalogSync.Proofs.Database.Survey

/-!
What a session leaves open: nothing that it opened. Work over a connection is a list of exchanges, each
a statement with the outcome that it brought; one that fails is rolled back before anything else
happens. Around them stand the events of the engine and of the connection, and these come in the same
order whether the survey ends well or by a fault.
-/

namespace CatalogSync

/-- A statement and what it brought back. -/
structure Exchange where
  statement : Statement
  outcome : Outcome
deriving DecidableEq, Repr

/-- The event is part of the work over a connection. -/
def Event.isWork : Event → Bool
  | .execute _ | .rollback => true
  | .createEngine _ | .connect | .close | .dispose => false

namespace Exchange

def failed (x : Exchange) : Bool :=
  match x.outcome with
  | .rows _ => false
  | .failure _ => true

/-- The events of an exchange. -/
def events (x : Exchange) : List Event :=
  match x.outcome with
  | .rows _ => [.execute x.statement]
  | .failure _ => [.execute x.statement, .rollback]

theorem failed_iff (x : Exchange) : x.failed ↔ ∃ reason, x.outcome = .failure reason := by
  rw [failed]
  cases x.outcome <;> simp

end Exchange

/-- A list is cut at a value that stands in its middle part alone. -/
theorem exists_of_append_eq {α : Type} {front middle back before after : List α} {a : α}
    (hfront : a ∉ front) (hback : a ∉ back) (h : front ++ middle ++ back = before ++ a :: after) :
    ∃ l r, middle = l ++ a :: r ∧ before = front ++ l ∧ after = r ++ back := by
  rw [List.append_assoc] at h
  obtain ⟨l, rfl, hrest⟩ : ∃ l, before = front ++ l ∧ middle ++ back = l ++ a :: after := by
    rcases List.append_eq_append_iff.1 h with ⟨l, rfl, hrest⟩ | ⟨r, rfl, hrest⟩
    · exact ⟨l, rfl, hrest⟩
    · cases r with
      | nil => exact ⟨[], by simp, hrest.symm⟩
      | cons b r =>
        obtain ⟨rfl, -⟩ := List.cons.inj hrest
        exact absurd (List.mem_append_right _ List.mem_cons_self) hfront
  rcases List.append_eq_append_iff.1 hrest with ⟨r, rfl, hend⟩ | ⟨r, rfl, hend⟩
  · exact absurd (hend ▸ List.mem_append_right _ List.mem_cons_self) hback
  · cases r with
    | nil =>
      rw [List.nil_append] at hend
      exact absurd (hend ▸ List.mem_cons_self) hback
    | cons b r =>
      obtain ⟨rfl, rfl⟩ := List.cons.inj hend
      exact ⟨l, r, rfl, rfl, rfl⟩

/-- Where lists are joined, a value stands in one of them. -/
theorem exists_of_flatMap_eq {α β : Type} {f : α → List β} {xs : List α} {before after : List β}
    {b : β} (h : xs.flatMap f = before ++ b :: after) :
    ∃ ys x zs l r, xs = ys ++ x :: zs ∧ f x = l ++ b :: r ∧ before = ys.flatMap f ++ l ∧
      after = r ++ zs.flatMap f := by
  induction xs generalizing before with
  | nil => exact absurd h.symm (by simp)
  | cons x xs ih =>
    rw [List.flatMap_cons] at h
    rcases List.append_eq_append_iff.1 h with ⟨rest, rfl, hrest⟩ | ⟨rest, hfirst, hrest⟩
    · obtain ⟨ys, y, zs, l, r, rfl, hy, rfl, rfl⟩ := ih hrest
      exact ⟨x :: ys, y, zs, l, r, rfl, hy, by simp, rfl⟩
    · cases rest with
      | nil =>
        obtain ⟨ys, y, zs, l, r, rfl, hy, hnil, rfl⟩ := @ih [] hrest.symm
        refine ⟨x :: ys, y, zs, l, r, rfl, hy, ?_, rfl⟩
        rw [List.flatMap_cons, List.append_assoc, ← hnil, hfirst, List.append_nil, List.append_nil]
      | cons c rest =>
        obtain ⟨rfl, rfl⟩ := List.cons.inj hrest
        exact ⟨[], x, xs, before, rest, rfl, hfirst, rfl, rfl⟩

/-! ### Work over a connection -/

/-- What a part of a survey sent, its first statement being that of the number `cursor`: each statement
took the outcome of its number, and each that failed is reported once. -/
structure Converses (outcomes : List Outcome) (cursor : Nat) (xs : List Exchange) (s : Survey) : Prop
    where
  events : s.events = xs.flatMap (·.events)
  outcomes : xs.map (·.outcome) = (List.range' cursor xs.length).map (outcomeAt outcomes)
  errors : s.errors.length = xs.countP (·.failed)

theorem Converses.nil (outcomes : List Outcome) (cursor : Nat) : Converses outcomes cursor [] {} :=
  ⟨rfl, rfl, rfl⟩

theorem Converses.append {outcomes : List Outcome} {cursor : Nat} {xs ys : List Exchange}
    {s t : Survey} (hs : Converses outcomes cursor xs s) (hfault : s.fault = none)
    (ht : Converses outcomes (cursor + xs.length) ys t) :
    Converses outcomes cursor (xs ++ ys) (s ++ t) := by
  rw [Survey.append_of_fault_eq_none hfault]
  refine ⟨?_, ?_, ?_⟩
  · rw [List.flatMap_append, ← hs.events, ← ht.events]
  · rw [List.map_append, hs.outcomes, ht.outcomes, ← List.map_append, List.length_append,
      ← List.range'_append_1]
  · rw [List.length_append, List.countP_append, hs.errors, ht.errors]

/-- The survey of one table sends at most two statements, and takes their outcomes. -/
theorem converses_surveyTable (name : String) (outcomes : List Outcome) (cursor : Nat) :
    ∃ xs, Converses outcomes cursor xs (surveyTable name (outcomes.drop cursor)).1 ∧
      (surveyTable name (outcomes.drop cursor)).2 = outcomes.drop (cursor + xs.length) := by
  have hone : List.range' cursor 1 = [cursor] := rfl
  have htwo : List.range' cursor 2 = [cursor, cursor + 1] := rfl
  rw [surveyTable, nextOutcome_drop]
  cases hd : outcomeAt outcomes cursor with
  | failure reason =>
    exact ⟨[⟨.describe name, .failure reason⟩], ⟨rfl, by simp [hone, hd], rfl⟩, rfl⟩
  | rows rows =>
    dsimp only
    cases rows.mapM Column.ofRow with
    | error e => exact ⟨[⟨.describe name, .rows rows⟩], ⟨rfl, by simp [hone, hd], rfl⟩, rfl⟩
    | ok columns =>
      dsimp only
      rw [nextOutcome_drop]
      cases hc : outcomeAt outcomes (cursor + 1) with
      | failure reason =>
        exact ⟨[⟨.describe name, .rows rows⟩, ⟨.constraints name, .failure reason⟩],
          ⟨rfl, by simp [htwo, hd, hc], rfl⟩, rfl⟩
      | rows constraintRows =>
        refine ⟨[⟨.describe name, .rows rows⟩, ⟨.constraints name, .rows constraintRows⟩], ?_⟩
        have houtcomes : [Outcome.rows rows, .rows constraintRows] =
            (List.range' cursor 2).map (outcomeAt outcomes) := by simp [htwo, hd, hc]
        dsimp only
        split
        all_goals exact ⟨⟨rfl, houtcomes, rfl⟩, rfl⟩

/-- The survey of listed tables is a list of exchanges, whether a fault ends it or not. -/
theorem converses_surveyTables (names : List String) (outcomes : List Outcome) (cursor : Nat) :
    ∃ xs, Converses outcomes cursor xs (surveyTables names (outcomes.drop cursor)) := by
  induction names generalizing cursor with
  | nil => exact ⟨[], .nil outcomes cursor⟩
  | cons name names ih =>
    obtain ⟨xs, hfirst, hrest⟩ := converses_surveyTable name outcomes cursor
    rw [surveyTables]
    simp only [hrest]
    cases hfault : (surveyTable name (outcomes.drop cursor)).1.fault with
    | some e =>
      rw [Survey.append_of_fault_eq_some hfault]
      exact ⟨xs, hfirst⟩
    | none =>
      obtain ⟨ys, hlater⟩ := ih (cursor + xs.length)
      exact ⟨xs ++ ys, hfirst.append hfault hlater⟩

/-- So is the survey of the whole database. -/
theorem converses_surveyAll (outcomes : List Outcome) :
    ∃ xs, Converses outcomes 0 xs (surveyAll outcomes) := by
  cases hfirst : outcomeAt outcomes 0 with
  | failure reason =>
    rw [surveyAll_of_failure hfirst]
    exact ⟨[⟨.showTables, .failure reason⟩], rfl, by simp [hfirst], rfl⟩
  | rows rows =>
    rw [surveyAll_of_rows hfirst]
    split
    · exact ⟨[⟨.showTables, .rows rows⟩], rfl, by simp [hfirst], rfl⟩
    · obtain ⟨ys, hlater⟩ := converses_surveyTables (listedNames rows) outcomes 1
      have hlisted : Converses outcomes 0 [⟨.showTables, .rows rows⟩]
          (listing (listedNames rows).length) := ⟨rfl, by simp [hfirst], rfl⟩
      exact ⟨_, hlisted.append rfl hlater⟩

/-! ### The order of events -/

section
variable {xs : List Exchange} {before after : List Event} {statement : Statement}

theorem executed_flatMap_events (xs : List Exchange) :
    executed (xs.flatMap (·.events)) = xs.map (·.statement) := by
  induction xs with
  | nil => rfl
  | cons x xs ih =>
    rw [List.flatMap_cons, executed_append, ih, List.map_cons, Exchange.events]
    cases x.outcome <;> rfl

theorem count_rollback_flatMap_events (xs : List Exchange) :
    (xs.flatMap (·.events)).count .rollback = xs.countP (·.failed) := by
  induction xs with
  | nil => rfl
  | cons x xs ih =>
    rw [List.flatMap_cons, List.count_append, ih, List.countP_cons, Exchange.events, Exchange.failed]
    cases x.outcome <;> simp [Nat.add_comm]

/-- A rollback among exchanges stands right behind the statement of one that failed. -/
theorem exists_of_rollback (h : xs.flatMap (·.events) = before ++ .rollback :: after) :
    ∃ ys x zs, xs = ys ++ x :: zs ∧ x.failed ∧
      before = ys.flatMap (·.events) ++ [.execute x.statement] := by
  obtain ⟨ys, x, zs, l, r, rfl, hevents, rfl, -⟩ := exists_of_flatMap_eq h
  refine ⟨ys, x, zs, rfl, ?_⟩
  rw [Exchange.events] at hevents
  rw [Exchange.failed]
  cases hx : x.outcome with
  | rows rows =>
    rw [hx] at hevents
    rcases List.cons_eq_append_iff.1 hevents with ⟨-, hend⟩ | ⟨l, -, hend⟩
    · cases hend
    · simp at hend
  | failure reason =>
    rw [hx] at hevents
    rcases List.cons_eq_append_iff.1 hevents with ⟨-, hend⟩ | ⟨l, rfl, hend⟩
    · cases hend
    · rcases List.cons_eq_append_iff.1 hend with ⟨rfl, -⟩ | ⟨l, -, hend⟩
      · exact ⟨rfl, rfl⟩
      · simp at hend

/-- The statement of an exchange that failed stands right in front of a rollback. -/
theorem exists_of_execute (h : xs.flatMap (·.events) = before ++ .execute statement :: after) :
    ∃ ys x zs, xs = ys ++ x :: zs ∧ before = ys.flatMap (·.events) ∧
      (x.failed → ∃ rest, after = .rollback :: rest) := by
  obtain ⟨ys, x, zs, l, r, rfl, hevents, rfl, rfl⟩ := exists_of_flatMap_eq h
  refine ⟨ys, x, zs, rfl, ?_⟩
  rw [Exchange.events] at hevents
  rw [Exchange.failed]
  cases hx : x.outcome with
  | rows rows =>
    rw [hx] at hevents
    rcases List.cons_eq_append_iff.1 hevents with ⟨rfl, -⟩ | ⟨l, -, hend⟩
    · exact ⟨List.append_nil _, nofun⟩
    · simp at hend
  | failure reason =>
    rw [hx] at hevents
    rcases List.cons_eq_append_iff.1 hevents with ⟨rfl, hend⟩ | ⟨l, rfl, hend⟩
    · obtain ⟨-, rfl⟩ := List.cons.inj hend
      exact ⟨List.append_nil _, fun _ => ⟨_, rfl⟩⟩
    · rcases List.cons_eq_append_iff.1 hend with ⟨-, hend⟩ | ⟨l, -, hend⟩
      · cases hend
      · simp at hend

/-- The events of exchanges are statements and rollbacks. -/
theorem isWork_of_mem {e : Event} (h : e ∈ xs.flatMap (·.events)) : e.isWork := by
  obtain ⟨x, -, hx⟩ := List.mem_flatMap.1 h
  rw [Exchange.events] at hx
  cases houtcome : x.outcome with
  | rows rows =>
    rw [houtcome] at hx
    rw [List.mem_singleton.1 hx]
    rfl
  | failure reason =>
    rw [houtcome] at hx
    rcases List.mem_pair.1 hx with rfl | rfl <;> rfl

end

/-- The outcome of an exchange is that of the number of statements before it. -/
theorem Converses.outcome_eq {outcomes : List Outcome} {ys zs : List Exchange} {x : Exchange}
    {s : Survey} (h : Converses outcomes 0 (ys ++ x :: zs) s) :
    outcomeAt outcomes (executed (ys.flatMap (·.events))).length = x.outcome := by
  have hget := congrArg (·[ys.length]?) h.outcomes
  rw [executed_flatMap_events, List.length_map]
  simpa using hget.symm

/-! ### Whole sessions -/

/-- An engine is made for the session. -/
def Script.makesEngine (script : Script) (ownEngine : Bool) : Bool :=
  ownEngine && script.engineError.isNone

/-- There is an engine, and it connects. -/
def Script.connects (script : Script) (ownEngine : Bool) : Bool :=
  (!ownEngine || script.engineError.isNone) && script.connectError.isNone

namespace Script

variable {script : Script} {ownEngine : Bool} {e : Event}

/-- The events of a session before any work is done. -/
def opening (script : Script) (url : String) (ownEngine : Bool) : List Event :=
  (if ownEngine then [.createEngine (normaliseUrl url)] else []) ++
    if ownEngine && script.engineError.isSome then [] else [.connect]

/-- The events of a session after all work is done. -/
def ending (script : Script) (ownEngine : Bool) : List Event :=
  (if script.connects ownEngine then [.close] else []) ++
    if script.makesEngine ownEngine then [.dispose] else []

theorem not_mem_opening (he : e.isWork) (url : String) : e ∉ script.opening url ownEngine := by
  rw [opening]
  cases ownEngine <;> cases script.engineError <;> cases e <;> simp_all [Event.isWork]

theorem not_mem_ending (he : e.isWork) : e ∉ script.ending ownEngine := by
  rw [ending]
  cases script.connects ownEngine <;> cases script.makesEngine ownEngine <;> cases e <;>
    simp_all [Event.isWork]

theorem not_mem_work {work : List Event} (hwork : ∀ e ∈ work, e.isWork) (he : e.isWork = false) :
    e ∉ work := by
  intro hmem
  rw [hwork e hmem] at he
  cases he

theorem ending_not_mem_opening (script : Script) (url : String) (ownEngine : Bool) :
    .close ∉ script.opening url ownEngine ∧ .dispose ∉ script.opening url ownEngine := by
  rw [opening]
  cases ownEngine <;> cases script.engineError <;> simp

theorem executed_opening (url : String) : executed (script.opening url ownEngine) = [] := by
  rw [opening]
  cases ownEngine <;> cases script.engineError <;> rfl

section
variable {work : List Event}

/-- An engine is asked for first and once, if at all. -/
theorem created_around (hwork : ∀ e ∈ work, e.isWork) (url : String) :
    if ownEngine then
      ∃ rest, script.opening url ownEngine ++ work ++ script.ending ownEngine =
          .createEngine (normaliseUrl url) :: rest ∧ ∀ address, .createEngine address ∉ rest
    else ∀ address,
      .createEngine address ∉ script.opening url ownEngine ++ work ++ script.ending ownEngine := by
  have hcreate : ∀ address, .createEngine address ∉ work := fun _ => not_mem_work hwork rfl
  rw [opening, ending]
  cases ownEngine <;> cases script.engineError <;> cases script.connects _ <;>
    cases script.makesEngine _ <;> simp [hcreate]

/-- A connection is closed once, behind all that was done over it. -/
theorem closed_around (hwork : ∀ e ∈ work, e.isWork) (url : String)
    (hconnects : script.connects ownEngine) :
    ∃ before after, script.opening url ownEngine ++ work ++ script.ending ownEngine =
        before ++ .close :: after ∧ .close ∉ before ∧ .close ∉ after ∧
      ∀ e ∈ after, e.isWork = false := by
  refine ⟨script.opening url ownEngine ++ work,
    if script.makesEngine ownEngine then [.dispose] else [], ?_, ?_, ?_, ?_⟩
  · rw [ending, if_pos hconnects]
    rfl
  · exact List.not_mem_append (script.ending_not_mem_opening url ownEngine).1
      (not_mem_work hwork rfl)
  · cases script.makesEngine ownEngine <;> simp
  · cases script.makesEngine ownEngine <;> simp [Event.isWork]

/-- Without a connection nothing is closed and nothing is done. -/
theorem unconnected_around (url : String) (hconnects : script.connects ownEngine = false) :
    .close ∉ script.opening url ownEngine ++ script.ending ownEngine ∧
      ∀ e ∈ script.opening url ownEngine ++ script.ending ownEngine, e.isWork = false := by
  refine ⟨List.not_mem_append (script.ending_not_mem_opening url ownEngine).1 ?_, fun e he => ?_⟩
  · rw [ending, hconnects]
    cases script.makesEngine ownEngine <;> simp
  · by_contra hwork
    have hwork : e.isWork := by simpa using hwork
    rcases List.mem_append.1 he with he | he
    · exact not_mem_opening hwork url he
    · exact not_mem_ending hwork he

/-- An engine that was made is disposed of at the end, once. -/
theorem disposed_around (hwork : ∀ e ∈ work, e.isWork) (url : String) :
    if script.makesEngine ownEngine then
      ∃ before, script.opening url ownEngine ++ work ++ script.ending ownEngine =
        before ++ [.dispose] ∧ .dispose ∉ before
    else .dispose ∉ script.opening url ownEngine ++ work ++ script.ending ownEngine := by
  have hbefore : .dispose ∉ script.opening url ownEngine ++ work ++
      if script.connects ownEngine then [.close] else [] := by
    refine List.not_mem_append (List.not_mem_append (script.ending_not_mem_opening url ownEngine).2
      (not_mem_work hwork rfl)) ?_
    cases script.connects ownEngine <;> simp
  rw [ending, ← List.append_assoc]
  cases script.makesEngine ownEngine with
  | false => simpa using hbefore
  | true => exact ⟨_, rfl, hbefore⟩

end

end Script

/-- Exchanges stand between the events that open a session and those that end it; there are none where
no connection is opened. -/
theorem exists_events_inspect (url : String) (script : Script) (ownEngine : Bool) :
    ∃ xs s, Converses script.outcomes 0 xs s ∧ (script.connects ownEngine = false → xs = []) ∧
      (inspect url script ownEngine).events =
        script.opening url ownEngine ++ xs.flatMap (·.events) ++ script.ending ownEngine ∧
      ∀ r, (inspect url script ownEngine).result = .ok r → r.errors = s.errors := by
  obtain ⟨engineError, connectError, outcomes⟩ := script
  rw [Script.ending, Script.opening, Script.connects, Script.makesEngine, inspect]
  dsimp only
  cases hengine : if ownEngine then engineError else none with
  | some reason =>
    obtain ⟨rfl, rfl⟩ : ownEngine = true ∧ engineError = some reason := by simpa using hengine
    exact ⟨[], {}, .nil outcomes 0, fun _ => rfl, rfl, fun _ hr => by cases hr⟩
  | none =>
    have hmade : (ownEngine && engineError.isSome) = false ∧
        (!ownEngine || engineError.isNone) = true ∧
        (ownEngine && engineError.isNone) = ownEngine := by
      cases ownEngine <;> simp_all
    rw [hmade.1, hmade.2.1, hmade.2.2]
    cases connectError with
    | some reason => exact ⟨[], {}, .nil outcomes 0, fun _ => rfl, by simp, fun _ hr => by cases hr⟩
    | none =>
      obtain ⟨xs, hxs⟩ := converses_surveyAll outcomes
      refine ⟨xs, _, hxs, (by rintro ⟨⟩), ?_⟩
      rw [← hxs.events]
      cases (surveyAll outcomes).fault with
      | some e => exact ⟨by simp, fun _ hr => by cases hr⟩
      | none =>
        refine ⟨by simp, fun r hr => ?_⟩
        cases hr
        rfl

/-- What was opened in a session is closed again. An engine is asked for first and once where none is
given, and one that was made is disposed of at the end, once. A connection is closed once, behind all
that was done over it; without a connection nothing is done. Each rollback stands right behind a
statement that failed, and each statement that failed right in front of a rollback; where the session
ends well, these are as many as the reports. -/
structure Released (url : String) (script : Script) (ownEngine : Bool) (i : Inspection) : Prop where
  created : if ownEngine then
      ∃ rest, i.events = .createEngine (normaliseUrl url) :: rest ∧
        ∀ address, .createEngine address ∉ rest
    else ∀ address, .createEngine address ∉ i.events
  closed : if script.connects ownEngine then
      ∃ before after, i.events = before ++ .close :: after ∧ .close ∉ before ∧ .close ∉ after ∧
        ∀ e ∈ after, e.isWork = false
    else .close ∉ i.events ∧ ∀ e ∈ i.events, e.isWork = false
  disposed : if script.makesEngine ownEngine then
      ∃ before, i.events = before ++ [.dispose] ∧ .dispose ∉ before
    else .dispose ∉ i.events
  recovered : ∀ before after, i.events = before ++ .rollback :: after →
    ∃ earlier statement reason, before = earlier ++ [.execute statement] ∧
      outcomeAt script.outcomes (executed earlier).length = .failure reason
  rolledBack : ∀ before statement after reason, i.events = before ++ .execute statement :: after →
    outcomeAt script.outcomes (executed before).length = .failure reason →
      ∃ rest, after = .rollback :: rest
  counted : ∀ r, i.result = .ok r → i.events.count .rollback = r.errors.length

/-- Whatever the database answers, and whether the survey ends well or by a fault, the session releases
what it opened. -/
theorem inspect_released (url : String) (script : Script) (ownEngine : Bool) :
    Released url script ownEngine (inspect url script ownEngine) := by
  obtain ⟨xs, s, hxs, hnone, hevents, hresult⟩ := exists_events_inspect url script ownEngine
  have hwork : ∀ e ∈ xs.flatMap (·.events), e.isWork := fun _ => isWork_of_mem
  have hfront : ∀ e, e.isWork → e ∉ script.opening url ownEngine :=
    fun e he => Script.not_mem_opening he url
  have hback : ∀ e, e.isWork → e ∉ script.ending ownEngine := fun e he => Script.not_mem_ending he
  refine ⟨?_, ?_, ?_, ?_, ?_, ?_⟩
  · rw [hevents]
    exact Script.created_around hwork url
  · rw [hevents]
    cases hconnects : script.connects ownEngine with
    | false =>
      rw [hnone hconnects, List.flatMap_nil, List.append_nil]
      exact Script.unconnected_around url hconnects
    | true => exact Script.closed_around hwork url hconnects
  · rw [hevents]
    exact Script.disposed_around hwork url
  · intro before after hsplit
    rw [hevents] at hsplit
    obtain ⟨l, r, hl, rfl, -⟩ := exists_of_append_eq (hfront _ rfl) (hback _ rfl) hsplit
    obtain ⟨ys, x, zs, rfl, hx, rfl⟩ := exists_of_rollback hl
    obtain ⟨reason, hreason⟩ := x.failed_iff.1 hx
    refine ⟨_, x.statement, reason, (List.append_assoc _ _ _).symm, ?_⟩
    rw [executed_append, Script.executed_opening, List.nil_append, hxs.outcome_eq, hreason]
  · intro before statement after reason hsplit hfailure
    rw [hevents] at hsplit
    obtain ⟨l, r, hl, rfl, rfl⟩ := exists_of_append_eq (hfront _ rfl) (hback _ rfl) hsplit
    obtain ⟨ys, x, zs, rfl, rfl, hrest⟩ := exists_of_execute hl
    rw [executed_append, Script.executed_opening, List.nil_append, hxs.outcome_eq] at hfailure
    obtain ⟨rest, rfl⟩ := hrest (x.failed_iff.2 ⟨reason, hfailure⟩)
    exact ⟨rest ++ _, rfl⟩
  · intro r hr
    rw [hevents, List.count_append, List.count_append, count_rollback_flatMap_events, hresult r hr,
      hxs.errors, List.count_eq_zero.2 (hfront _ rfl), List.count_eq_zero.2 (hback _ rfl)]
    omega

end CatalogSync
