import Mathlib
import SqlPipeline.Proofs.Plan.Dialogue
import SqlPipeline.Proofs.Plan.Joins

/-!
# Visitors are heeded

A visitor may do anything: what it answers depends on what it was asked before, on the context and
on everything that planning keeps. What it is asked while a statement is compiled, and what it
answers, is found call by call (`Execution.answered`).

The clauses of a select are gone through with the visitor's answers as data: `Query.children` are
the tasks that the answers for its four clauses come to, where a clause that the visitor left to the
job is what the job makes of it by itself on the rows so far (`Visit.settle`). Each step of
compiling is shown to talk to the visitor by its calls (`Compiling.Talks`) and to come to that, the
clauses first, then the select, then the statement. `Execution.visitor_heeded` puts it together.
-/

namespace SqlPipeline

open Sql (Expr Select Statement)

variable {α β : Type} {context : Context}

/-! ## What asks no visitor -/

namespace Compiling

theorem sameCalls_tables (clause : Sql.From) (filter : Option Expr) :
    Leads context SameCalls (tables clause filter) := by
  have hadmits : Admits context SameCalls := admits_sameCalls
  unfold tables
  split
  · refine leads_bind hadmits (sameCalls_plan _) fun source => ?_
    refine leads_bind hadmits (hadmits.setLayout _) fun _ => ?_
    exact leads_bind hadmits (sameCalls_plan _) fun task => leads_pure hadmits _
  · refine leads_bind hadmits (sameCalls_plan _) fun joined => ?_
    exact leads_bind hadmits (hadmits.setLayout _) fun _ => leads_pure hadmits _

theorem sameCalls_insert (upserts : Bool) (rows : Sql.Insert) :
    Leads context SameCalls (insert upserts rows) := by
  have hadmits : Admits context SameCalls := admits_sameCalls
  refine leads_bind hadmits (hadmits.setLayout _) fun _ => ?_
  refine leads_bind hadmits (sameCalls_plan _) fun table => ?_
  dsimp only
  -- the columns are all those of the table or the named ones, and then it goes on the same way
  split
  all_goals
    refine leads_bind hadmits ?_ fun columns => ?_
    · first
      | exact leads_pure hadmits _
      | exact leads_ofResult hadmits _
    split
    · exact sameCalls_throw_bind _ _
    · refine leads_bind hadmits (leads_ofResult hadmits _) fun values => ?_
      refine leads_bind hadmits (sameCalls_plan _) fun scan => ?_
      refine leads_bind hadmits (sameCalls_plan _) fun mutation => ?_
      refine leads_bind hadmits (sameCalls_plan _) fun task => ?_
      exact leads_bind hadmits (hadmits.setLayout _) fun _ => leads_pure hadmits _

theorem sameCalls_changeTask (table : ResolvedTable) (change : Change) :
    Leads context SameCalls (changeTask table change) := by
  have hadmits : Admits context SameCalls := admits_sameCalls
  refine leads_bind hadmits (sameCalls_plan _) fun mutation => ?_
  refine leads_bind hadmits (sameCalls_plan _) fun task => ?_
  exact leads_bind hadmits (hadmits.setLayout _) fun _ => leads_pure hadmits _

theorem sameCalls_tableCondition (name : Sql.ObjectName) (filter : Option Expr) :
    Leads context SameCalls (tableCondition name filter) := by
  have hadmits : Admits context SameCalls := admits_sameCalls
  refine leads_bind hadmits (sameCalls_plan _) fun table => ?_
  exact leads_bind hadmits (leads_ofResult hadmits _) fun condition => leads_pure hadmits _

theorem sameCalls_statement {visitor : Option Visitor} {query : Statement}
    (hselect : ∀ select, query ≠ .select select) :
    Leads context SameCalls (statement visitor query) := by
  have hadmits : Admits context SameCalls := admits_sameCalls
  cases query with
  | select query => exact absurd rfl (hselect query)
  | insert rows => exact sameCalls_insert false rows
  | upsert rows => exact sameCalls_insert true rows
  | update change =>
    refine leads_bind hadmits (hadmits.setLayout _) fun _ => ?_
    refine leads_bind hadmits (sameCalls_tableCondition _ _) fun found => ?_
    refine leads_bind hadmits (leads_ofResult hadmits _) fun assignments => ?_
    exact sameCalls_changeTask _ _
  | delete change =>
    refine leads_bind hadmits (hadmits.setLayout _) fun _ => ?_
    refine leads_bind hadmits (sameCalls_tableCondition _ _) fun found => ?_
    exact sameCalls_changeTask _ _
  | _ => exact sameCalls_throw _

end Compiling

/-! ## Clauses -/

namespace Visit

/-- What a clause comes to on rows of a layout: the task of the visit, or what the job makes of the
clause by itself if the visitor deferred. -/
def settle (visit : Visit) (layout : Layout) (own : Result (Option Task × Layout)) :
    Result (Option Task × Layout) :=
  if visit.isDeferred then own else .ok (visit.task, layout)

/-- What becomes of the visit of a statement that the visitor did not leave to the job. -/
def outcome (raw what : String) (visit : Visit) : Result Task := do
  match (← visit.check what).task with
  | none => .error (.noTaskFound raw)
  | some task => task.runnable

end Visit

namespace Query

/-- A condition as the job itself checks it on rows of a layout: its task, if there is one, and the
layout of the rows behind it. -/
def ownCondition (expr : Option Expr) (layout : Layout) : Result (Option Task × Layout) :=
  (condition layout expr).map fun step => (step.map Step.task, layout)

def ownGrouping (select : Select) (layout : Layout) : Result (Option Task × Layout) :=
  (grouping layout select).map fun found => (found.1.map Step.task, found.2)

def ownProjection (items : List Sql.SelectItem) (layout : Layout) : Result (Option Task × Layout) :=
  (projection layout items).map fun found => (some found.1.task, found.2)

/-- Where the rows of a select come from, their layout, and what is to be checked on them: the one
row there is without a FROM clause, or the rows of the tables. The tables get a part of the WHERE
clause only if the visitor left it to the job. -/
def first (schema : Option Schema) (select : Select) (visit : Visit) :
    Result (Query × Layout × Option Expr) :=
  match select.source, schema with
  | none, _ => .ok (.values [Row.empty], .empty, select.condition)
  | some _, none => .error .noSchemaSelected
  | some clause, some schema =>
    ofTables schema clause (if visit.isDeferred then select.condition else none)

/-- The tasks of a select, given what a visitor answered for its clauses. -/
def children (schema : Option Schema) (select : Select)
    (where_ grouping having projection : Visit) : Result (List Task) := do
  let (first, layout, residual) ← first schema select where_
  let (filter, layout) ← where_.settle layout (ownCondition residual layout)
  let (groups, layout) ← grouping.settle layout (ownGrouping select layout)
  let (filterGroups, layout) ← having.settle layout (ownCondition select.having layout)
  let (projected, _) ← projection.settle layout (ownProjection select.items layout)
  return first.task :: filter.toList ++ groups.toList ++ filterGroups.toList ++ projected.toList ++
    (distinctStep select).toList.map Step.task

end Query

namespace Compiling

variable {visitor : Visitor}

/-- The task of a clause, given the visit for it and what the job makes of it by itself. -/
def ClausePost (context : Context) (own : Layout → Result (Option Task × Layout)) (before : Layout)
    (visits : List Visit) (task : Option Task) (after : Layout) : Prop :=
  ∃ visit, visits = [visit] ∧ (context.planner = Planner.inMemory →
    visit.settle before (own before) = .ok (task, after))

theorem talks_clause {what : String} {call : Call} {own : Compiling (Option Task)}
    {result : Layout → Result (Option Task × Layout)} (hcalls : Leads context SameCalls own)
    (hdoes : context.planner = Planner.inMemory → ∀ before,
      Does context before own (result before)) :
    Talks context visitor [call] (fun visitor => clause (some visitor) what call own)
      (ClausePost context result) := by
  unfold clause
  refine talks_consult ?calls ?refused ?post
  case calls =>
    intro found
    cases found with
    | none => exact hcalls
    | some visit =>
      exact leads_bind admits_sameCalls (sameCalls_plan _) fun checked =>
        leads_pure admits_sameCalls _
  case refused =>
    intro visit hrefused before
    obtain ⟨error, herror⟩ := Visit.check_of_refused hrefused what
    refine ⟨error, ?_⟩
    dsimp only
    rw [herror]
    rfl
  case post =>
    intro visit before task last hrun
    refine ⟨visit, rfl, fun hplanner => ?_⟩
    unfold Visit.settle
    by_cases hdeferred : visit.isDeferred = true
    · rw [if_pos hdeferred] at hrun ⊢
      exact (hdoes hplanner before.layout).eq_ok hrun
    · rw [if_neg hdeferred] at hrun ⊢
      dsimp only at hrun
      cases hcheck : visit.check what with
      | error error => rw [hcheck] at hrun; cases hrun
      | ok checked =>
        rw [hcheck] at hrun
        cases hrun
        rw [Visit.check_eq_ok hcheck]

/-! ### The rows of a select -/

/-- Without a schema there are no tables. -/
theorem tables_of_no_schema (hschema : context.schema = none) (clause : Sql.From)
    (filter : Option Expr) (before : Compilation) :
    ∃ error, (((tables clause filter context).run).run before).1 = .error error := by
  have hresolve : ∀ name, context.resolve name = .error .noSchemaSelected := by
    intro name
    unfold Context.resolve
    rw [hschema]
  by_cases hjoins : clause.joins = []
  · refine ⟨.noSchemaSelected, ?_⟩
    unfold tables
    rw [if_pos (by simpa using hjoins), run_bind, run_plan, SourcePlan.runs_resolve, hresolve]
    rfl
  · have herrors : (Result.errors (JoinPlan.resolved context clause)).errors ≠ [] := by
      unfold JoinPlan.resolved Sql.From.tables
      rw [List.map_cons, hresolve, Result.errors_error]
      exact List.cons_ne_nil _ _
    obtain ⟨error, herror⟩ := ErrorList.exists_error? herrors
    refine ⟨error, ?_⟩
    rw [tables_joins hjoins, run_bind, run_plan, JoinPlan.run_ofFrom_error herror]

/-- The tables of a FROM clause, if they are planned, are those of its query. -/
theorem tables_eq_ok (hplanner : context.planner = Planner.inMemory) {clause : Sql.From}
    {filter residual : Option Expr} {before last : Compilation} {task : Task}
    (hrun : ((tables clause filter context).run).run before = (.ok (task, residual), last)) :
    ∃ schema query, context.schema = some schema ∧
      Query.ofTables schema clause filter = .ok (query, last.layout, residual) ∧
      task = query.task := by
  cases hschema : context.schema with
  | none =>
    obtain ⟨error, herror⟩ := tables_of_no_schema hschema clause filter before
    rw [hrun] at herror
    cases herror
  | some schema =>
    have hdoes := (Query.does_tables hschema hplanner clause filter).eq_ok hrun
    cases hquery : Query.ofTables schema clause filter with
    | error error => rw [hquery] at hdoes; cases hdoes
    | ok found =>
      rw [hquery] at hdoes
      obtain ⟨htask, hlayout⟩ := Prod.mk.inj (Except.ok.inj hdoes)
      obtain ⟨htask, hresidual⟩ := Prod.mk.inj htask
      exact ⟨schema, found.1, rfl, by rw [hquery, ← hlayout, ← hresidual], htask.symm⟩

/-- The tasks for FROM and WHERE, given the visit for WHERE. -/
def RowsPost (context : Context) (query : Select) (before : Layout) (visits : List Visit)
    (tasks : List Task) (after : Layout) : Prop :=
  ∃ visit, visits = [visit] ∧ (before = .empty → context.planner = Planner.inMemory →
    ∃ first layout residual filter,
      Query.first context.schema query visit = .ok (first, layout, residual) ∧
      visit.settle layout (Query.ownCondition residual layout) = .ok (filter, after) ∧
      tasks = first.task :: filter.toList)

theorem talks_values {query : Select} (hsource : query.source = none) :
    Talks context visitor [.condition query.condition] (fun visitor => rows (some visitor) query)
      (RowsPost context query) := by
  have hrows : (fun visitor => rows (some visitor) query) = fun visitor =>
      make (.values [Row.empty]) >>= fun values =>
        clause (some visitor) "WHERE" (.condition query.condition) (condition query.condition) >>=
          fun filter => pure (values :: filter.toList) := by
    funext visitor
    unfold rows
    rw [hsource]
  have hclause : Talks context visitor [.condition query.condition]
      (fun visitor => clause (some visitor) "WHERE" (.condition query.condition)
        (condition query.condition)) (ClausePost context (Query.ownCondition query.condition)) :=
    talks_clause (leads_condition admits_sameCalls _) fun hplanner before =>
      Query.does_condition hplanner query.condition
  have hvalues : Talks context visitor [] (fun _ => make (.values [Row.empty])) _ := talks_make _
  have htalks := talks_bind hvalues fun values =>
    talks_bind hclause fun filter => talks_pure (values :: filter.toList)
  rw [hrows]
  refine Talks.mono htalks ?_
  rintro before visits tasks after ⟨values, between, first, second, rfl, ⟨rfl, rfl, hvalues⟩,
    filter, layout, third, fourth, rfl, ⟨visit, rfl, hfilter⟩, rfl, rfl, rfl⟩
  refine ⟨visit, rfl, fun hempty hplanner => ?_⟩
  rw [hplanner] at hvalues
  cases hvalues
  refine ⟨.values [Row.empty], .empty, query.condition, filter, ?_, ?_, rfl⟩
  · unfold Query.first
    rw [hsource]
  · rw [← hempty]
    exact hfilter hplanner

theorem talks_tables {query : Select} {clause : Sql.From} (hsource : query.source = some clause) :
    Talks context visitor [.condition query.condition] (fun visitor => rows (some visitor) query)
      (RowsPost context query) := by
  have hadmits : Admits context SameCalls := admits_sameCalls
  unfold rows
  rw [hsource]
  dsimp only
  refine talks_consult ?calls ?refused ?post
  case calls =>
    intro found
    cases found with
    | none =>
      refine leads_bind hadmits (sameCalls_tables _ _) fun planned => ?_
      exact leads_bind hadmits (leads_condition hadmits _) fun filter => leads_pure hadmits _
    | some visit =>
      refine leads_bind hadmits (sameCalls_tables _ _) fun planned => ?_
      exact leads_bind hadmits (leads_ofResult hadmits _) fun checked => leads_pure hadmits _
  case refused =>
    intro visit hrefused before
    obtain ⟨error, herror⟩ := Visit.check_of_refused hrefused "WHERE"
    dsimp only
    rw [run_bind]
    rcases ((tables clause none context).run).run before with ⟨other | planned, between⟩
    · exact ⟨other, rfl⟩
    · refine ⟨error, ?_⟩
      rw [herror]
      rfl
  case post =>
    intro visit before tasks last hrun
    refine ⟨visit, rfl, fun _ hplanner => ?_⟩
    have hfirst : ∀ {schema first layout residual}, context.schema = some schema →
        Query.ofTables schema clause (if visit.isDeferred then query.condition else none) =
          .ok (first, layout, residual) →
        Query.first context.schema query visit = .ok (first, layout, residual) := by
      intro schema first layout residual hschema htables
      unfold Query.first
      rw [hsource, hschema]
      exact htables
    unfold Visit.settle
    by_cases hdeferred : visit.isDeferred = true
    · rw [if_pos hdeferred] at hrun
      obtain ⟨⟨task, residual⟩, between, htables, hrest⟩ := run_bind_eq_ok hrun
      obtain ⟨filter, ending, hfilter, hpure⟩ := run_bind_eq_ok hrest
      obtain ⟨schema, first, hschema, hquery, rfl⟩ := tables_eq_ok hplanner htables
      have hown := (Query.does_condition hplanner residual).eq_ok hfilter
      cases hpure
      refine ⟨first, between.layout, residual, filter, ?_, ?_, rfl⟩
      · exact hfirst hschema (by rw [if_pos hdeferred]; exact hquery)
      · rw [if_pos hdeferred]
        exact hown
    · rw [if_neg hdeferred] at hrun
      obtain ⟨⟨task, residual⟩, between, htables, hrest⟩ := run_bind_eq_ok hrun
      obtain ⟨checked, ending, hcheck, hpure⟩ := run_bind_eq_ok hrest
      obtain ⟨schema, first, hschema, hquery, rfl⟩ := tables_eq_ok hplanner htables
      rw [run_ofResult] at hcheck
      obtain ⟨hchecked, rfl⟩ := Prod.mk.inj hcheck
      cases hpure
      refine ⟨first, last.layout, residual, visit.task, ?_, ?_, ?_⟩
      · exact hfirst hschema (by rw [if_neg hdeferred]; exact hquery)
      · rw [if_neg hdeferred]
      · rw [Visit.check_eq_ok hchecked]

theorem talks_rows (query : Select) : Talks context visitor [.condition query.condition]
    (fun visitor => rows (some visitor) query) (RowsPost context query) := by
  cases hsource : query.source with
  | none => exact talks_values hsource
  | some clause => exact talks_tables hsource

/-! ### Selects -/

/-- The planner in memory makes sequences of what it is given. -/
theorem eq_of_sequence {name : String} {children : List Task} {root : Task}
    (h : Planner.inMemory (.sequence name children) = .ok root) :
    root = Task.inSequence name children := by
  obtain ⟨found, hfound, hroot⟩ := Result.bind_eq_ok.mp h
  have hsame : found = children := by
    have hall := Result.mapM_eq_ok_iff.mp hfound
    clear hfound hroot h
    induction hall with
    | nil => rfl
    | cons hfirst _ ih => rw [Task.runnable_eq_ok hfirst, ih]
  cases hroot
  rw [hsame]

/-- The root of a select has the given tasks below it, and one more for distinct rows. -/
theorem eq_of_together (hplanner : context.planner = Planner.inMemory) {query : Select}
    {tasks : List Task} {before last : Compilation} {root : Task}
    (hrun : ((together query tasks context).run).run before = (.ok root, last)) :
    root = Task.inSequence "select"
      (tasks ++ (Query.distinctStep query).toList.map Step.task) := by
  unfold together at hrun
  unfold Query.distinctStep
  by_cases hdistinct : query.distinct = true
  · rw [if_pos hdistinct] at hrun ⊢
    obtain ⟨distinct, between, hmade, hlast⟩ := run_bind_eq_ok hrun
    have hmade : (((make .distinct >>= fun task => pure (some task)) context).run).run before =
        (.ok distinct, between) := hmade
    obtain ⟨task, ending, hmake, hpure⟩ := run_bind_eq_ok hmade
    have htask := (run_make_eq_ok hmake).1
    have hroot := (run_make_eq_ok hlast).1
    rw [hplanner] at htask hroot
    cases htask
    cases hpure
    exact eq_of_sequence hroot
  · rw [if_neg hdistinct] at hrun ⊢
    obtain ⟨distinct, between, hpure, hlast⟩ := run_bind_eq_ok hrun
    have hroot := (run_make_eq_ok hlast).1
    rw [hplanner] at hroot
    cases hpure
    exact eq_of_sequence hroot

/-- The calls about the clauses of a select, in the order they are made. -/
def clauseCalls (query : Select) : List Call :=
  [.condition query.condition, .grouping query, .having query.having, .projection query.items]

/-- The root of a select, given the visits for its clauses. -/
def SelectPost (context : Context) (query : Select) (visits : List Visit) (root : Task) : Prop :=
  ∃ where_ grouping having projection : Visit, visits = [where_, grouping, having, projection] ∧
    (context.planner = Planner.inMemory → ∃ children,
      Query.children context.schema query where_ grouping having projection = .ok children ∧
        root = Task.inSequence "select" children)

/-- A select is compiled by asking for its clauses, each after the one before. -/
theorem talks_select (query : Select) : Talks context visitor (clauseCalls query)
    (fun visitor => select (some visitor) query) fun _ visits root _ =>
      SelectPost context query visits root := by
  have hlayout : Talks context visitor [] (fun _ => setLayout .empty)
      fun _ visits _ after => visits = [] ∧ after = .empty :=
    talks_still (admits_sameCalls.setLayout _) fun before done last hrun => by
      cases hrun
      exact ⟨rfl, rfl⟩
  have hgrouping : Talks context visitor [.grouping query]
      (fun visitor => clause (some visitor) "GROUP BY" (.grouping query) (grouping query))
      (ClausePost context (Query.ownGrouping query)) :=
    talks_clause (leads_grouping admits_sameCalls query) fun hplanner before =>
      Query.does_grouping hplanner query
  have hhaving : Talks context visitor [.having query.having]
      (fun visitor => clause (some visitor) "HAVING" (.having query.having)
        (condition query.having)) (ClausePost context (Query.ownCondition query.having)) :=
    talks_clause (leads_condition admits_sameCalls _) fun hplanner before =>
      Query.does_condition hplanner query.having
  have hprojection : Talks context visitor [.projection query.items]
      (fun visitor => clause (some visitor) "projection" (.projection query.items)
        (projection query.items)) (ClausePost context (Query.ownProjection query.items)) :=
    talks_clause (leads_projection admits_sameCalls _) fun hplanner before =>
      Query.does_projection hplanner query.items
  have htogether : ∀ tasks, Talks context visitor [] (fun _ => together query tasks)
      fun _ visits root _ => visits = [] ∧ (context.planner = Planner.inMemory →
        root = Task.inSequence "select"
          (tasks ++ (Query.distinctStep query).toList.map Step.task)) :=
    fun tasks => talks_still (leads_together admits_sameCalls query tasks)
      fun before root last hrun => ⟨rfl, fun hplanner => eq_of_together hplanner hrun⟩
  have htalks := talks_bind hlayout fun _ => talks_bind (talks_rows query) fun rows =>
    talks_bind hgrouping fun groups => talks_bind hhaving fun having =>
      talks_bind hprojection fun projected =>
        htogether (rows ++ groups.toList ++ having.toList ++ projected.toList)
  simp only [select_eq]
  refine Talks.mono htalks ?_
  rintro before visits root after ⟨-, layout, first, second, rfl, ⟨rfl, rfl⟩, rows, between, third,
    fourth, rfl, ⟨where_, rfl, hrows⟩, groups, grouped, fifth, sixth, rfl, ⟨grouping, rfl, hgroups⟩,
    filter, filtered, seventh, eighth, rfl, ⟨having, rfl, hfilter⟩, projected, last, ninth, tenth,
    rfl, ⟨projection, rfl, hprojected⟩, rfl, hroot⟩
  refine ⟨where_, grouping, having, projection, rfl, fun hplanner => ?_⟩
  obtain ⟨first, layout, residual, condition, hfirst, hcondition, rfl⟩ := hrows rfl hplanner
  refine ⟨_, ?_, hroot hplanner⟩
  simp only [Query.children, hfirst, Result.ok_bind, hcondition, hgroups hplanner,
    hfilter hplanner, hprojected hplanner]
  rfl

/-! ### Statements -/

def partCalls : Statement → List Call
  | .select query => clauseCalls query
  | _ => []

theorem talks_statement (query : Statement) : Talks context visitor (partCalls query)
    (fun visitor => statement (some visitor) query >>= fun task => ofResult task.runnable)
      fun _ visits root _ => ∀ select, query = .select select →
        SelectPost context select visits root := by
  have hrunnable : ∀ task : Task, Talks context visitor [] (fun _ => ofResult task.runnable)
      fun _ visits root _ => visits = [] ∧ root = task :=
    fun task => talks_still (leads_ofResult admits_sameCalls _) fun before root last hrun => by
      rw [run_ofResult] at hrun
      exact ⟨rfl, Task.runnable_eq_ok (Prod.mk.inj hrun).1⟩
  by_cases hselect : ∃ select, query = .select select
  · obtain ⟨select, rfl⟩ := hselect
    have hroot : Talks context visitor (clauseCalls select) _ _ := talks_select select
    have htalks := talks_bind hroot hrunnable
    rw [List.append_nil] at htalks
    refine Talks.mono htalks ?_
    rintro before visits root after ⟨task, between, first, second, rfl, hpost, rfl, rfl⟩
    intro other hother
    cases hother
    rw [List.append_nil]
    exact hpost
  · have hother : ∀ select, query ≠ .select select := fun select h => hselect ⟨select, h⟩
    -- all other statements are left to the job as they are
    have hstill : Talks context visitor []
        (fun _ => statement none query >>= fun task => ofResult task.runnable)
        fun _ visits root _ => ∀ select, query = .select select →
          SelectPost context select visits root :=
      talks_still (leads_bind admits_sameCalls (sameCalls_statement hother) fun task =>
        leads_ofResult admits_sameCalls _) fun _ _ _ _ select h => absurd h (hother select)
    cases query with
    | select query => exact absurd rfl (hother query)
    | _ => exact hstill

/-- How a dialogue about a statement goes on after the visitor's answer for the statement itself. -/
inductive Concludes (context : Context) (query : Statement) :
    Result Visit → List (Call × Result Visit) → Result Task → Prop
  | failed (error : Error) : Concludes context query (.error error) [] (.error error)
  | kept {visit : Visit} (hkept : visit.isDeferred = false) :
      Concludes context query (.ok visit) [] (visit.outcome context.raw query.kind)
  | deferred {more : List (Call × Result Visit)} {result : Result Task}
      (hheeds : Heeds (partCalls query) more result)
      (hroot : ∀ root, result = .ok root → ∃ visits : List Visit,
        more.map Prod.snd = visits.map .ok ∧ ∀ select, query = .select select →
          SelectPost context select visits root) :
      Concludes context query (.ok .deferred) more result

namespace Concludes

variable {query : Statement} {answer : Result Visit} {more : List (Call × Result Visit)}
  {result : Result Task} {call : Call}

/-- The error of an answer is the error of the statement. -/
theorem fails (h : Concludes context query answer more result) {error : Error}
    (hmem : (call, .error error) ∈ (.statement query, answer) :: more) : result = .error error := by
  cases h with
  | failed other =>
    cases List.mem_singleton.mp hmem
    rfl
  | kept hkept => cases List.mem_singleton.mp hmem
  | deferred hheeds hroot =>
    rcases List.mem_cons.mp hmem with hmem | hmem
    · cases hmem
    · exact hheeds.fails call error hmem

/-- A visit that is refused keeps a statement from being compiled. -/
theorem refuses (h : Concludes context query answer more result) {visit : Visit}
    (hmem : (call, .ok visit) ∈ (.statement query, answer) :: more) (hrefused : visit.Refused) :
    ∃ error, result = .error error := by
  cases h with
  | failed error => exact ⟨error, rfl⟩
  | kept hkept =>
    cases List.mem_singleton.mp hmem
    obtain ⟨error, herror⟩ := Visit.check_of_refused hrefused query.kind
    refine ⟨error, ?_⟩
    unfold Visit.outcome
    rw [herror]
    rfl
  | deferred hheeds hroot =>
    rcases List.mem_cons.mp hmem with hmem | hmem
    · cases hmem
      exact absurd hrefused Visit.not_refused_deferred
    · exact hheeds.refuses call visit hmem hrefused

end Concludes

def proceed (raw : String) (query : Statement) (visitor : Visitor) : Option Visit → Compiling Task
  | some visit => ofResult (visit.outcome raw query.kind)
  | none => statement (some visitor) query >>= fun task => ofResult task.runnable

/-- Compiling a text is to ask the visitor for its statement, and to go on as it answers. -/
theorem run_compile_proceed {query : Statement} (hparse : parse context.raw = .ok query)
    (visitor : Visitor) (before : Compilation) :
    ((compile (some visitor) context).run).run before =
      (((consult (some visitor) (.statement query) >>= proceed context.raw query visitor)
          context).run).run { before with statement := some query } := by
  have hvisit : visit (some visitor) query = consult (some visitor) (.statement query) >>=
      fun found => _ := rfl
  rw [run_compile hparse, hvisit, bind_assoc, run_bind, run_bind]
  rcases ((consult (some visitor) (.statement query) context).run).run
    { before with statement := some query } with ⟨error | found, between⟩
  · rfl
  cases found with
  | some visit =>
    dsimp only [proceed]
    rw [run_bind, run_ofResult, run_ofResult, Visit.outcome]
    cases visit.check query.kind with
    | error error => rfl
    | ok checked =>
      obtain ⟨task, status⟩ := checked
      cases task with
      | none => rfl
      | some task => exact run_ofResult _ between
  | none =>
    dsimp only [proceed]
    rw [bind_assoc, run_bind, run_bind]
    rcases ((statement (some visitor) query context).run).run between with ⟨error | task, last⟩
    · rfl
    · rfl

/-- Compiling the text of a statement is a dialogue that begins with the statement. -/
theorem exists_asks_compile {query : Statement} (hparse : parse context.raw = .ok query)
    (visitor : Visitor) (before : Compilation) :
    ∃ answer more result last,
      Asks context visitor (fun visitor => compile (some visitor)) before
        ((.statement query, answer) :: more) result last ∧
      Concludes context query answer more result := by
  have hcompile : ∀ {log result last}, Asks context visitor (fun visitor =>
      consult (some visitor) (.statement query) >>= proceed context.raw query visitor)
        { before with statement := some query } log result last →
      Asks context visitor (fun visitor => compile (some visitor)) before log result last :=
    fun h => h.congr rfl fun visitor => run_compile_proceed hparse visitor before
  obtain ⟨answer, between, -, hasks⟩ : ∃ answer between, _ ∧ Asks context visitor _ _ _ _ _ :=
    asks_consult visitor (.statement query) { before with statement := some query }
  cases answer with
  | error error =>
    exact ⟨_, [], _, _, hcompile (asks_bind_error hasks), .failed error⟩
  | ok visit =>
    cases hdeferred : visit.isDeferred with
    | false =>
      have hfound : Asks context visitor (fun visitor => consult (some visitor) (.statement query))
          { before with statement := some query } [(.statement query, .ok visit)]
          (.ok (some visit)) between := by
        rw [Except.map, hdeferred] at hasks
        exact hasks
      have hrest : Asks context visitor
          (fun visitor => proceed context.raw query visitor (some visit)) between []
          (visit.outcome context.raw query.kind) between :=
        asks_still (run_ofResult _ between) rfl
      exact ⟨_, [], _, _, hcompile (asks_bind hfound hrest), .kept hdeferred⟩
    | true =>
      cases Visit.eq_deferred hdeferred
      obtain ⟨more, result, last, hrest, hheeds, hroot⟩ :=
        @talks_statement context visitor query between
      exact ⟨_, more, result, last, hcompile (asks_bind hasks hrest), .deferred hheeds hroot⟩

end Compiling

/-! ## The main statement -/

namespace Execution

/-- Call number `n` that is made of a visitor while the statement of a job is compiled, and what the
visitor answers, if there are so many calls. It is found by compiling with the visitor up to
there. -/
def answered (visitor : Visitor) (spec : JobSpec) (world : World) (n : Nat) :
    Option (Call × Result Visit) :=
  let reached := (compiled { spec with visitor := some (visitor.upTo n) } world).2
  reached.calls[n]?.map fun call =>
    (call, (((visitor (reached.calls.take n) call (Execution.context spec world)).run).run
      reached.effects).1)

theorem answered_eq {visitor : Visitor} {spec : JobSpec} {world : World}
    {log : List (Call × Result Visit)} {result : Result Task} {last : Compilation}
    (hcalls : world.compilation.calls = [])
    (h : Compiling.Asks (Execution.context spec world) visitor
      (fun visitor => Compiling.compile (some visitor)) world.compilation log result last)
    (n : Nat) : answered visitor spec world n = log[n]? := by
  have hcompiled : (compiled { spec with visitor := some (visitor.upTo n) } world) =
      ((Compiling.compile (some (visitor.upTo n)) (Execution.context spec world)).run).run
        world.compilation := rfl
  unfold answered
  dsimp only
  rw [hcompiled]
  cases hentry : log[n]? with
  | none =>
    have hlength : log.length ≤ n := List.getElem?_eq_none_iff.mp hentry
    rw [h.beyond n (by rw [hcalls]; simpa using hlength), h.calls_eq, hcalls]
    simpa using hlength
  | some entry =>
    obtain ⟨call, answer⟩ := entry
    obtain ⟨reached, hrun, hreached, hanswer⟩ := h.reaches n call answer hentry
    rw [hcalls, List.length_nil, Nat.zero_add] at hrun
    rw [hcalls, List.nil_append] at hreached hanswer
    have hlength : n < log.length := (List.getElem?_eq_some_iff.mp hentry).1
    have hcall : reached.calls[n]? = some call := by
      rw [hreached, List.getElem?_map, List.getElem?_take_of_lt (Nat.lt_succ_self n), hentry]
      rfl
    have hhistory : reached.calls.take n = (log.take n).map Prod.fst := by
      rw [hreached, ← List.map_take, List.take_take, Nat.min_eq_left (Nat.le_succ n)]
    rw [hrun]
    dsimp only
    rw [hcall, hhistory, Option.map_some, hanswer]

/-- What a visitor is found to answer is what it answers in some state. -/
theorem exists_of_answered {visitor : Visitor} {spec : JobSpec} {world : World} {n : Nat}
    {call : Call} {answer : Result Visit}
    (h : answered visitor spec world n = some (call, answer)) :
    ∃ history effects,
      (((visitor history call (Execution.context spec world)).run).run effects).1 = answer := by
  obtain ⟨found, -, hfound⟩ := Option.map_eq_some_iff.mp h
  cases hfound
  exact ⟨_, _, rfl⟩

/-- **A visitor is heeded.** Whatever the visitor does, for every statement, schema, configuration
and planner: it is asked for the statement first. An error it answers a call with is the error of
compiling. If it ends a visit with a status with which none may end, compiling fails. If it ends the
visit for the statement without a task, no task is found. If it leaves a select to the job, it is
asked for its WHERE, GROUP BY and HAVING clauses and its select list in this order, for each at most
once, and if the select is compiled, for each of them once. Then, with the planner in memory, the
root has below it where the rows come from, then what the visitor or the job made of each clause in
this order, then the task for distinct rows if they were asked for. -/
theorem visitor_heeded (visitor : Visitor) (raw : String) (config : Config) (planner : Planner)
    (schema : Option Schema) {statement : Statement}
    (hparse : Compiling.parse raw = .ok statement) :
    let spec : JobSpec := ⟨raw, config, planner, some visitor⟩
    let world : World := .start schema config
    let found := compiled spec world
    let answers := answered visitor spec world
    (∀ n, (answers n).map Prod.fst = found.2.calls[n]?) ∧
      (∃ answer, answers 0 = some (.statement statement, answer)) ∧
      (∀ n call error, answers n = some (call, .error error) → found.1 = .error error) ∧
      (∀ n call visit, answers n = some (call, .ok visit) →
        visit.status = .unknown ∨ visit.status = .error → ∃ error, found.1 = .error error) ∧
      (answers 0 = some (.statement statement, .ok ⟨none, .final⟩) →
        found.1 = .error (.noTaskFound raw)) ∧
      ∀ query, statement = .select query →
        answers 0 = some (.statement statement, .ok .deferred) →
          found.2.calls <+: [.statement statement, .condition query.condition, .grouping query,
            .having query.having, .projection query.items] ∧
          ∀ root, found.1 = .ok root →
            found.2.calls = [.statement statement, .condition query.condition, .grouping query,
              .having query.having, .projection query.items] ∧
            ∃ where_ grouping having projection : Visit,
              answers 1 = some (.condition query.condition, .ok where_) ∧
              answers 2 = some (.grouping query, .ok grouping) ∧
              answers 3 = some (.having query.having, .ok having) ∧
              answers 4 = some (.projection query.items, .ok projection) ∧
              (planner = Planner.inMemory → ∃ children,
                Query.children schema query where_ grouping having projection = .ok children ∧
                  root = Task.inSequence "select" children) := by
  intro spec world found answers
  have hraw : Compiling.parse (Execution.context spec world).raw = .ok statement := hparse
  obtain ⟨answer, more, result, last, hasks, hconcludes⟩ :=
    Compiling.exists_asks_compile hraw visitor world.compilation
  have hfound : found = (result, last) := hasks.run_eq
  have hcalls : last.calls = ((.statement statement, answer) :: more).map Prod.fst :=
    hasks.calls_eq
  have hanswers : ∀ n, answers n = ((.statement statement, answer) :: more)[n]? :=
    answered_eq rfl hasks
  simp only [hfound, hanswers]
  refine ⟨fun n => ?calls, ⟨answer, rfl⟩, fun n call error h => ?failed,
    fun n call visit h hrefused => ?refused, fun h => ?taskless, fun query hselect h => ?deferred⟩
  case calls => rw [hcalls, List.getElem?_map]
  case failed => exact hconcludes.fails (List.mem_of_getElem? h)
  case refused => exact hconcludes.refuses (List.mem_of_getElem? h) hrefused
  case taskless =>
    cases h
    cases hconcludes with
    | kept hkept => rfl
  case deferred =>
    cases h
    cases hselect
    cases hconcludes with
    | kept hkept => cases hkept
    | deferred hheeds hroot =>
      rw [hcalls]
      refine ⟨(List.prefix_cons_inj _).mpr hheeds.isPrefix, fun root hok => ?_⟩
      -- a select that was compiled was asked about in full, with these four visits
      obtain ⟨visits, hvisits, hpost⟩ := hroot root hok
      obtain ⟨where_, grouping, having, projection, rfl, hchildren⟩ := hpost query rfl
      have hmore := List.zip_of_prod (hheeds.complete root hok) hvisits
      rw [hmore]
      exact ⟨rfl, where_, grouping, having, projection, rfl, rfl, rfl, rfl, hchildren⟩

/-- The visitor that keeps all rows, whatever the WHERE clause, and leaves the rest to the job. -/
def keeping : Visitor := fun _ call =>
  match call with
  | .condition _ => return .done (some (Task.filter (.literal (.boolean true))))
  | _ => return .deferred

/-- The visitor that has nothing to say, not even that it leaves it to the job. -/
def silent : Visitor := fun _ _ => return ⟨none, .unknown⟩

/-- One visitor is heeded for WHERE, and the other one is refused. -/
theorem visitor_heeded_family :
    let raw := "SELECT kind FROM pets WHERE owner = 2"
    let spec : JobSpec := ⟨raw, .default, .inMemory, some keeping⟩
    let refused : JobSpec := ⟨raw, .default, .inMemory, some silent⟩
    let world : World := .start (some .family) .default
    Compiling.parse raw = .ok (.select ownedPets) ∧
      (∃ root children, (compiled spec world).1 = .ok root ∧
        Query.children (some .family) ownedPets
          (.done (some (Task.filter (.literal (.boolean true))))) .deferred .deferred .deferred =
            .ok children ∧
        root = Task.inSequence "select" children) ∧
      ∃ error, (compiled refused world).1 = .error error := by
  intro raw spec refused world
  have hparse : Compiling.parse raw = .ok (.select ownedPets) := by cbv
  obtain ⟨-, ⟨answer, hanswer⟩, -, -, -, hselect⟩ :=
    visitor_heeded keeping raw .default .inMemory (some .family) hparse
  obtain ⟨-, ⟨other, hother⟩, -, hrefused, -⟩ :=
    visitor_heeded silent raw .default .inMemory (some .family) hparse
  refine ⟨hparse, ?kept, ?refused⟩
  case kept =>
    have hraw : Compiling.parse (Execution.context spec world).raw = .ok (.select ownedPets) :=
      hparse
    have hrun : compiled spec world = _ :=
      Compiling.run_compile_proceed hraw keeping world.compilation
    obtain ⟨root, hroot⟩ : ∃ root, (compiled spec world).1 = .ok root := by
      rw [hrun]
      exact ⟨_, rfl⟩
    obtain ⟨_, _, hdeferred⟩ := exists_of_answered hanswer
    cases hdeferred
    obtain ⟨-, where_, grouping, having, projection, hwhere, hgrouping, hhaving, hprojection,
      hchildren⟩ := (hselect ownedPets rfl hanswer).2 root hroot
    obtain ⟨_, _, hfilter⟩ := exists_of_answered hwhere
    obtain ⟨_, _, hgroups⟩ := exists_of_answered hgrouping
    obtain ⟨_, _, hfilterGroups⟩ := exists_of_answered hhaving
    obtain ⟨_, _, hprojected⟩ := exists_of_answered hprojection
    cases hfilter
    cases hgroups
    cases hfilterGroups
    cases hprojected
    obtain ⟨children, hchildren, heq⟩ := hchildren rfl
    exact ⟨root, children, hroot, hchildren, heq⟩
  case refused =>
    obtain ⟨_, _, hvisit⟩ := exists_of_answered hother
    cases hvisit
    exact hrefused 0 _ _ hother (.inl rfl)

end Execution
end SqlPipeline
