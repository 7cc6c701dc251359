import SqlPipeline.Proofs.Query.PushDown

/-!
# Two plans for a WHERE clause

A job splits the WHERE clause of an inner join: the conjuncts about one table are checked when the
table is read, and only the others on the joined rows. It can be made to plan the other way by a
visitor that answers for the WHERE clause (`Visitor.filtering`): then no table is filtered, and the
whole clause is checked once on the joined rows.

**If no evaluation fails, both plans give the same rows in the same order**
(`Execution.push_down_rows`). That one of them may fail where the other does not is left open: a
condition is asked about rows that the other plan never puts together.
-/

namespace SqlPipeline

open Sql (Expr Select)

/-- The layout of the joined rows of all tables of a FROM clause. -/
def Schema.joinedLayout (schema : Schema) (clause : Sql.From) : Result Layout := do
  let plans ← Result.collect (clause.tables.map (SourcePlan.ofRef schema))
  return .joined (plans.map (·.layout))

/-- The visitor that checks a bound condition in place of the WHERE clause, and leaves everything
else to the job. -/
def Visitor.filtering (predicate : Bound) : Visitor
  | _, .condition (some _) => do return .done (some (← Planning.make (.filter predicate)))
  | _, _ => return .deferred

namespace Query

variable {schema : Schema} {clause : Sql.From} {select : Select} {condition : Expr}
  {whole : Layout} {predicate : Bound}

/-! ## The rows before grouping -/

/-- The joined tables, none of them filtered, and the step that checks the whole condition. -/
def plainRows (schema : Schema) (clause : Sql.From) (predicate : Bound) :
    Result (Query × Option Step × Layout) := do
  let (query, layout, _) ← ofTables schema clause none
  return (query, some (.filter predicate), layout)

theorem filter_of_ofRef {ref : Sql.TableRef} {plan : SourcePlan}
    (h : SourcePlan.ofRef schema ref = .ok plan) : plan.filter = none := by
  obtain ⟨found, -, h⟩ := Result.bind_eq_ok.mp h
  cases h
  rfl

section

variable {plans : List SourcePlan}

/-- The tables of a FROM clause stand for tables of the schema, none of them is filtered, and none
of their columns is computed. -/
theorem plans_of_refs
    (hplans : Result.collect (clause.tables.map (SourcePlan.ofRef schema)) = .ok plans) :
    (∀ plan ∈ plans, plan.Stands schema ∧ plan.filter = none) ∧
      (Layout.joined (plans.map (·.layout))).Stored ∧ plans.length = clause.joins.length + 1 := by
  have hrefs := Result.collect_map_eq_ok_iff.mp hplans
  have hstands := stands_of_refs hrefs
  refine ⟨fun plan hplan => ⟨hstands plan hplan, ?_⟩, ?_, ?_⟩
  · obtain ⟨ref, -, href⟩ := exists_mem_of_forall₂ hrefs hplan
    exact filter_of_ofRef href
  · apply Layout.stored_joined
    intro layout hlayout
    obtain ⟨plan, hplan, rfl⟩ := List.mem_map.mp hlayout
    obtain ⟨table, -, hof⟩ := hstands plan hplan
    rw [hof]
    exact Layout.stored_ofTable plan.binding table.definition
  · rw [← hrefs.length_eq]
    simp [Sql.From.tables]

/-- Each table of inner joins gets the conjuncts that are about it alone. -/
theorem ofTables_some (hjoins : clause.joins ≠ [])
    (hinner : ∀ join ∈ clause.joins, join.kind = .inner)
    (hplans : Result.collect (clause.tables.map (SourcePlan.ofRef schema)) = .ok plans) :
    ofTables schema clause (some condition) =
      joinSides clause (SourcePlan.pushDown plans condition).1 >>= fun found =>
        .ok (found.1, found.2, residual (plans.map (·.layout)) condition) := by
  have hall : clause.joins.all (·.kind = .inner) = true := by simpa using hinner
  have hpush : share clause (some condition) plans = SourcePlan.pushDown plans condition := by
    simp only [share, hall, if_true]
  unfold ofTables
  rw [if_neg (by simpa using hjoins)]
  unfold ofJoins
  rw [hplans, Result.ok_bind, hpush]
  rfl

/-- Without a condition there is nothing to be shared out. -/
theorem ofTables_none (hjoins : clause.joins ≠ [])
    (hplans : Result.collect (clause.tables.map (SourcePlan.ofRef schema)) = .ok plans) :
    ofTables schema clause none =
      joinSides clause plans >>= fun found => .ok (found.1, found.2, none) := by
  unfold ofTables
  rw [if_neg (by simpa using hjoins)]
  unfold ofJoins
  rw [hplans, Result.ok_bind]
  rfl

end

/-- What is found of a FROM clause under a condition, and of the same clause without it. -/
structure Shared (schema : Schema) (whole : Layout) (condition : Expr)
    (limited full : Query × Layout × Option Expr) : Prop where
  stored : whole.Stored
  layout_eq : limited.2.1 = whole
  layout_eq_full : full.2.1 = whole
  /-- What is left to the tables and what remains are together the whole condition. -/
  shared : ∃ parts : List Expr,
    Flow.Narrows whole 0 whole.width parts (limited.1.flow schema) (full.1.flow schema) ∧
      (∀ found, limited.2.2 = some found → whole.Admits found) ∧
        ∀ row, (parts.all (whole.holds row) && limited.2.2.all (whole.holds row)) =
          whole.holds row condition

/-- **The tables under a condition are narrowed by the part of it that is left to them.** -/
theorem shared_ofTables (hschema : schema.InMemory) (hjoins : clause.joins ≠ [])
    (hinner : ∀ join ∈ clause.joins, join.kind = .inner)
    (hwhole : schema.joinedLayout clause = .ok whole) (hadmits : whole.Admits condition) :
    Result.Alike (Shared schema whole condition) (ofTables schema clause (some condition))
      (ofTables schema clause none) := by
  obtain ⟨plans, hplans, hlayout⟩ := Result.bind_eq_ok.mp hwhole
  cases hlayout
  -- no column of a table is computed, so conditions go through AND and parentheses
  obtain ⟨hstands, hstored, hlength⟩ := plans_of_refs hplans
  have hnarrows := narrows_joinSides hschema hinner hlength hstands hstored hadmits
  rw [ofTables_some hjoins hinner hplans, ofTables_none hjoins hplans]
  refine hnarrows.bind fun limited full _ _ hfound => ?_
  obtain ⟨hlimited, hfull, hflows⟩ := hfound
  refine ⟨hstored, hlimited, hfull, _, hflows, fun found hresidual => ?_, fun row => ?_⟩
  · refine (Layout.admits_conjoin hstored hresidual).mpr fun part hpart => ?_
    exact (Layout.admits_conjuncts hstored condition).mp hadmits part (List.mem_filter.mp hpart).1
  · show (_ && (residual (plans.map (·.layout)) condition).all _) = _
    rw [residual, Layout.holds_conjoin hstored, Layout.holds_conjuncts hstored]
    exact all_shared _ _ _

/-- If both are complete, they have the same rows. -/
def SameRows (first other : Flow) : Prop :=
  first.Complete → other.Complete → first.rows = other.rows

/-- **Before they are grouped, the rows of both plans are the same.** -/
theorem sameRows_rows (hschema : schema.InMemory) (hsource : select.source = some clause)
    (hcondition : select.condition = some condition) (hjoins : clause.joins ≠ [])
    (hinner : ∀ join ∈ clause.joins, join.kind = .inner)
    (hwhole : schema.joinedLayout clause = .ok whole)
    (hpredicate : Bound.bind whole condition = .ok predicate) :
    Result.Alike (fun pushed plain => pushed.2.2 = plain.2.2 ∧
        SameRows (pushed.2.1.toList.foldl Step.flow (pushed.1.flow schema))
          (plain.2.1.toList.foldl Step.flow (plain.1.flow schema)))
      (rows schema select) (plainRows schema clause predicate) := by
  have hshared := shared_ofTables hschema hjoins hinner hwhole ⟨predicate, hpredicate⟩
  unfold rows plainRows
  rw [hsource, hcondition]
  refine hshared.bind fun limited full _ _ hfound => ?_
  obtain ⟨query, _, rest⟩ := limited
  obtain ⟨fullQuery, layout, _⟩ := full
  obtain ⟨hstored, rfl, rfl, parts, hflows, hrest, hholds⟩ := hfound
  obtain ⟨filter, hfilter, hrows⟩ := rows_condition hrest
  have hstep : Query.condition layout rest = .ok (filter.map Step.filter) := by
    unfold Query.condition
    rw [hfilter]
    rfl
  dsimp only
  rw [hstep]
  refine ⟨rfl, fun hpushed hcomplete => ?_⟩
  have hplain : ((Step.filter predicate).flow (fullQuery.flow schema)).Complete := hcomplete
  have hplainRows : ((Step.filter predicate).flow (fullQuery.flow schema)).rows =
      (fullQuery.flow schema).rows.filter predicate.holds := Step.rows_filter hplain
  obtain ⟨hwide, keeps, hkept, hkeeps⟩ :=
    hflows (Step.complete_of_foldl hpushed) (Step.complete_of_flow hplain)
  rw [hrows _ hpushed, hkept, List.filter_filter]
  refine Eq.trans (List.filter_congr fun row hrow => ?_) hplainRows.symm
  -- nothing stands before or after the joined rows
  have hrow : keeps row = parts.all (layout.holds row) := by
    simpa using hkeeps [] row [] rfl (hwide row hrow)
  rw [hrow, Bool.and_comm, hholds row, Layout.holds_of_bind hpredicate]

/-- **So are the rows of the selects.** -/
theorem sameRows_withOutputs (select : Select)
    {pushed plain : Result (Query × Option Step × Layout)}
    (h : Result.Alike (fun pushed plain => pushed.2.2 = plain.2.2 ∧
        SameRows (pushed.2.1.toList.foldl Step.flow (pushed.1.flow schema))
          (plain.2.1.toList.foldl Step.flow (plain.1.flow schema))) pushed plain) :
    Result.Alike (fun pushed plain => SameRows (pushed.1.flow schema) (plain.1.flow schema))
      (pushed >>= withOutputs select) (plain >>= withOutputs select) := by
  refine h.bind fun pushed plain _ _ hfound => ?_
  obtain ⟨hlayout, hsame⟩ := hfound
  unfold withOutputs
  rw [hlayout]
  refine Result.Alike.bind (Result.alike_self _) fun steps _ _ _ heq => ?_
  subst heq
  intro hpushed hplain
  rw [flow, List.foldl_append] at hpushed hplain ⊢
  rw [flow, List.foldl_append]
  exact Step.rows_foldl _ (hsame (Step.complete_of_foldl hpushed) (Step.complete_of_foldl hplain))

/-! ## The plain plan is what the visitor makes of the job -/

section

variable {context : Context}

theorem does_filtering (hplanner : context.planner = Planner.inMemory) (history : List Call)
    (expr : Expr) :
    Planning.Does context (Visitor.filtering predicate history (.condition (some expr)))
      (.ok (.done (some (Step.filter predicate).task))) :=
  Planning.does_then (Planning.does_inMemory hplanner (.filter predicate)) (Planning.does_pure _)

/-- Whatever else the visitor is asked for is left to the job. -/
theorem leaves_filtering (call : Call) (hcall : ∀ expr, call ≠ .condition expr) :
    Compiling.Leaves context (some (.filtering predicate)) call := by
  rintro asked ⟨⟩ history
  cases call with
  | condition expr => exact absurd rfl (hcall expr)
  | statement _ => exact Planning.does_pure _
  | grouping _ => exact Planning.does_pure _
  | having _ => exact Planning.does_pure _
  | projection _ => exact Planning.does_pure _

/-- **With the visitor, the job joins all tables and checks the condition once.** -/
theorem does_plainRows (hschema : context.schema = some schema)
    (hplanner : context.planner = Planner.inMemory) (hsource : select.source = some clause)
    (hcondition : select.condition = some condition) :
    Compiling.Does context .empty (Compiling.rows (some (.filtering predicate)) select)
      ((plainRows schema clause predicate).map rowTasks) := by
  unfold Compiling.rows plainRows
  rw [hsource, hcondition]
  dsimp only
  rw [Result.map_bind]
  refine Compiling.does_then (Compiling.does_consult_visits
    (fun history => does_filtering hplanner history condition) rfl) ?_
  exact Compiling.does_bind_map (does_tables hschema hplanner clause none) fun found _ =>
    Compiling.does_pure _

end

end Query

/-! ## The main statement -/

namespace Execution

variable {spec : JobSpec} {schema : Schema} {select : Select} {clause : Sql.From}
  {condition : Expr} {whole : Layout} {predicate : Bound}

/-- The job with the visitor that checks a condition in place of the WHERE clause. -/
abbrev plainSpec (spec : JobSpec) (predicate : Bound) : JobSpec :=
  { spec with visitor := some (.filtering predicate) }

/-- The execution of the plain plan. -/
theorem run_plain (hschema : schema.InMemory) (hplanner : spec.planner = Planner.inMemory)
    (hparse : Compiling.parse spec.raw = .ok (.select select))
    (hsource : select.source = some clause) (hcondition : select.condition = some condition) :
    RunsAs (plainSpec spec predicate) schema
      (Query.plainRows schema clause predicate >>= Query.withOutputs select) := by
  have hreads : ∀ rows, Query.plainRows schema clause predicate = .ok rows →
      rows.1.Reads schema := by
    intro rows hrows
    obtain ⟨found, hfound, hrows⟩ := Result.bind_eq_ok.mp hrows
    cases hrows
    exact (Query.binds_ofTables hfound).reads hschema
  have hrows : Compiling.Does (startContext (plainSpec spec predicate) schema) .empty
      (Compiling.rows (plainSpec spec predicate).visitor select)
      ((Query.plainRows schema clause predicate).map Query.rowTasks) :=
    Query.does_plainRows rfl hplanner hsource hcondition
  exact @run_withOutputs (plainSpec spec predicate) schema select hplanner hparse _ hreads hrows
    Query.leaves_filtering

/-- An execution that comes to a flow and does not fail is done with all rows of the flow. -/
theorem ofFlow_of_phase {root : Task} {flow : Flow} (h : (ofFlow root flow).phase ≠ .run) :
    flow.Complete ∧
      ofFlow root flow = ⟨.done, some root, some .finished, some flow.rows, none⟩ := by
  unfold Flow.Complete
  unfold ofFlow at h ⊢
  cases hend : flow.failureAtEnd with
  | none => exact ⟨rfl, rfl⟩
  | some failure => simp [hend] at h

/-- **Pushing down a WHERE clause preserves results.** Execute a select from inner joins of tables
in memory, with a WHERE clause that can be bound to the joined columns. Execute it again with a
visitor that has the whole clause checked once on the joined rows. If neither run fails, both come
to the same rows in the same order: they go equally far, with the same failure if they do not
compile. -/
theorem push_down_rows (hschema : schema.InMemory)
    (hplanner : spec.planner = Planner.inMemory) (hvisitor : spec.visitor = none)
    (hparse : Compiling.parse spec.raw = .ok (.select select))
    (hsource : select.source = some clause) (hjoins : clause.joins ≠ [])
    (hinner : ∀ join ∈ clause.joins, join.kind = .inner)
    (hcondition : select.condition = some condition)
    (hwhole : schema.joinedLayout clause = .ok whole)
    (hpredicate : Bound.bind whole condition = .ok predicate) :
    let pushed := (Execution.run spec (.start (some schema) spec.config)).1
    let plain := (Execution.run (plainSpec spec predicate) (.start (some schema) spec.config)).1
    pushed.phase ≠ .run → plain.phase ≠ .run →
      pushed.rows = plain.rows ∧ pushed.phase = plain.phase ∧ pushed.failure = plain.failure := by
  intro pushed plain
  have hsame := Query.sameRows_withOutputs select
    (Query.sameRows_rows hschema hsource hcondition hjoins hinner hwhole hpredicate)
  obtain ⟨hpushedFails, hpushedRuns⟩ := run_select hschema hplanner hvisitor hparse
  obtain ⟨hplainFails, hplainRuns⟩ :=
    @run_plain spec schema select clause condition predicate hschema hplanner hparse hsource
      hcondition
  cases hquery : Query.rows schema select >>= Query.withOutputs select with
  | error error =>
    rw [hquery] at hsame
    cases hplainQuery : Query.plainRows schema clause predicate >>= Query.withOutputs select with
    | ok found => rw [hplainQuery] at hsame; exact hsame.elim
    | error other =>
      rw [hplainQuery] at hsame
      cases (hsame : error = other)
      obtain ⟨last, -, hrun⟩ := hpushedFails error hquery
      obtain ⟨plainLast, -, hplainRun⟩ := hplainFails error hplainQuery
      have hpushedEq : pushed = _ := congrArg Prod.fst hrun
      have hplainEq : plain = _ := congrArg Prod.fst hplainRun
      rw [hpushedEq, hplainEq]
      exact fun _ _ => ⟨rfl, rfl, rfl⟩
  | ok found =>
    rw [hquery] at hsame
    cases hplainQuery : Query.plainRows schema clause predicate >>= Query.withOutputs select with
    | error other => rw [hplainQuery] at hsame; exact hsame.elim
    | ok plainFound =>
      rw [hplainQuery] at hsame
      obtain ⟨last, -, -, hrun⟩ := hpushedRuns found.1 found.2 hquery
      obtain ⟨plainLast, -, -, hplainRun⟩ := hplainRuns plainFound.1 plainFound.2 hplainQuery
      have hpushedEq : pushed = _ := congrArg Prod.fst hrun
      have hplainEq : plain = _ := congrArg Prod.fst hplainRun
      rw [hpushedEq, hplainEq]
      intro hpushedPhase hplainPhase
      obtain ⟨hcomplete, hdone⟩ := ofFlow_of_phase hpushedPhase
      obtain ⟨hplainComplete, hplainDone⟩ := ofFlow_of_phase hplainPhase
      rw [hdone, hplainDone]
      exact ⟨congrArg some (hsame hcomplete hplainComplete), rfl, rfl⟩

/-- The tables of `FROM people JOIN pets ON id = owner`. -/
def ownersClause : Sql.From :=
  ⟨⟨⟨[⟨"people", false⟩]⟩, none⟩, [⟨.inner, ⟨⟨[⟨"pets", false⟩]⟩, none⟩,
    .binary (.ident ⟨"id", false⟩) .eq (.ident ⟨"owner", false⟩)⟩]⟩

/-- The select `SELECT kind FROM people JOIN pets ON id = owner WHERE id = 2`. -/
def ownersSelect : Select :=
  ⟨false, [.expr (.ident ⟨"kind", false⟩)], none, some ownersClause,
    some (.binary (.ident ⟨"id", false⟩) .eq (.literal (.number "2"))), [], none⟩

/-- The joined rows of people, after the given steps, and pets. -/
def ownersQuery (steps : List Step) : Query :=
  .join .inner (.binary (.column 0) .eq (.column 2)) 2
    (.sequence "join_side(people)" (.source "people" "people") steps)
    (.sequence "join_side(pets)" (.source "pets" "pets") [])

/-- Both plans find the pets of the second of the people. -/
theorem push_down_rows_family :
    let spec : JobSpec :=
      ⟨"SELECT kind FROM people JOIN pets ON id = owner WHERE id = 2", .default, .inMemory, none⟩
    let predicate : Bound := .binary (.column 0) .eq (.literal (.int 2))
    let pushed := (Execution.run spec (.start (some .family) spec.config)).1
    let plain :=
      (Execution.run (plainSpec spec predicate) (.start (some .family) spec.config)).1
    (pushed.phase ≠ .run ∧ plain.phase ≠ .run) ∧
      pushed.rows = plain.rows ∧ pushed.phase = plain.phase ∧ pushed.failure = plain.failure := by
  intro spec predicate pushed plain
  have hparse : Compiling.parse spec.raw = .ok (.select ownersSelect) := by cbv
  have hpushedQuery : Query.ofSelect .family ownersSelect = .ok (.sequence "select"
      (ownersQuery [.filter (.binary (.column 0) .eq (.literal (.int 2)))])
      [.projection [.column 3]], ⟨[⟨some "pets", "kind"⟩]⟩) := rfl
  have hplainQuery : (Query.plainRows .family ownersClause
        (.binary (.column 0) .eq (.literal (.int 2))) >>= Query.withOutputs ownersSelect) =
      .ok (.sequence "select" (ownersQuery [])
        [.filter (.binary (.column 0) .eq (.literal (.int 2))), .projection [.column 3]],
        ⟨[⟨some "pets", "kind"⟩]⟩) := rfl
  have hpushed : pushed.phase = .done := by
    obtain ⟨-, hruns⟩ := run_select Schema.inMemory_family rfl rfl hparse
    obtain ⟨last, -, -, hrun⟩ := hruns _ _ hpushedQuery
    exact (congrArg (fun found => found.1.phase) hrun).trans rfl
  have hplain : plain.phase = .done := by
    obtain ⟨-, hruns⟩ := run_plain Schema.inMemory_family rfl hparse rfl rfl
    obtain ⟨last, -, -, hrun⟩ := hruns _ _ hplainQuery
    exact (congrArg (fun found => found.1.phase) hrun).trans rfl
  have hpushedPhase : pushed.phase ≠ .run := hpushed ▸ by decide
  have hplainPhase : plain.phase ≠ .run := hplain ▸ by decide
  exact ⟨⟨hpushedPhase, hplainPhase⟩, push_down_rows Schema.inMemory_family rfl rfl hparse rfl
    (by decide) (by decide) rfl rfl rfl hpushedPhase hplainPhase⟩

end Execution
end SqlPipeline
