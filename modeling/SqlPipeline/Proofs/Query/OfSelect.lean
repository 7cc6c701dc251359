import SqlPipeline.Proofs.Plan.Resolve
import SqlPipeline.Proofs.Query.Basic

/-!
# The query of a select

A select is compiled step by step, on a layout that changes underway. Here the same query is built
by a function of the schema and the select (`Query.ofSelect`), clause by clause:

* the tables of the FROM clause, with the part of the WHERE clause that is left to each of them
  (`Query.ofTables`),
* what remains of the WHERE clause (`Query.rows`),
* the steps from the groups to the distinct rows (`Query.outputs`).

**Compiling a select gives the tasks of its query and leaves its layout** (`Query.does_withOutputs`),
with any visitor that leaves the clauses after WHERE to the job.
-/

namespace SqlPipeline

open Sql (Expr Select SelectItem)

/-! ## Tables -/

namespace SourcePlan

def ofRef (schema : Schema) (table : Sql.TableRef) : Result SourcePlan := do
  let found ← schema.resolve table.name
  return ⟨table.binding, found, .ofTable table.binding found.definition, none⟩

def query (name : String) (plan : SourcePlan) : Result Query := do
  let filter ← plan.filter.mapM (Bound.bind plan.layout)
  return .sequence (name ++ "(" ++ plan.binding ++ ")") (.source plan.binding plan.table.key)
    (filter.map Step.filter).toList

end SourcePlan

namespace Query

/-- Joins further sides to a query, from left to right. -/
def joinAll (query : Query) (layout : Layout) :
    List (Sql.Join × Query × Layout) → Result (Query × Layout)
  | [] => .ok (query, layout)
  | (added, right, rightLayout) :: rest => do
    let on ← Bound.bind (layout.append rightLayout) added.on
    joinAll (.join added.kind on rightLayout.width query right) (layout.append rightLayout) rest

/-- Leaves to the tables of inner joins the parts of a condition that are about one of them. -/
def share (clause : Sql.From) (condition : Option Expr) (plans : List SourcePlan) :
    List SourcePlan × Option Expr :=
  match condition with
  | some filter =>
    if clause.joins.all (·.kind = .inner) then SourcePlan.pushDown plans filter
    else (plans, some filter)
  | none => (plans, none)

/-- Joins the tables of a FROM clause, each filtered by its own condition. -/
def joinSides (clause : Sql.From) (plans : List SourcePlan) : Result (Query × Layout) := do
  let sides ← Result.collect (plans.map (SourcePlan.query "join_side"))
  match sides, plans.map (·.layout) with
  | first :: rights, layout :: layouts =>
    joinAll first layout (clause.joins.zip (rights.zip layouts))
  | _, _ => .error (.internal "FROM without any sources")

/-- The query of several tables under a condition, its layout, and what remains of the condition. -/
def ofJoins (schema : Schema) (clause : Sql.From) (condition : Option Expr) :
    Result (Query × Layout × Option Expr) := do
  let plans ← Result.collect (clause.tables.map (SourcePlan.ofRef schema))
  let (query, layout) ← joinSides clause (share clause condition plans).1
  return (query, layout, (share clause condition plans).2)

/-- The query of the tables of a FROM clause under a condition. -/
def ofTables (schema : Schema) (clause : Sql.From) (condition : Option Expr) :
    Result (Query × Layout × Option Expr) :=
  if clause.joins.isEmpty then do
    let source ← SourcePlan.ofRef schema clause.table
    let query ← { source with filter := condition }.query "source_select"
    return (query, source.layout, none)
  else ofJoins schema clause condition

/-! ## Clauses -/

def condition (layout : Layout) (expr : Option Expr) : Result (Option Step) := do
  return (← expr.mapM (Bound.bind layout)).map Step.filter

/-- The rows of a select before they are grouped: a query, the step after it, and the layout. -/
def rows (schema : Schema) (select : Select) : Result (Query × Option Step × Layout) :=
  match select.source with
  | none => do return (.values [Row.empty], ← condition .empty select.condition, .empty)
  | some clause => do
    let (query, layout, residual) ← ofTables schema clause select.condition
    return (query, ← condition layout residual, layout)

def grouping (layout : Layout) (select : Select) : Result (Option Step × Layout) := do
  let exprs := select.items.filterMap SelectItem.expr? ++ select.having.toList
  let aggregates ← Aggregate.collect layout exprs
  if select.groupBy.isEmpty && aggregates.isEmpty then return (none, layout)
  else
    let keys ← Compiling.groupKeys layout select.groupBy
    return (some (.groupBy (keys.map (·.1)) aggregates),
      ⟨keys.map (·.2) ++ aggregates.map fun aggregate => ⟨none, aggregate.name⟩⟩)

def projection (layout : Layout) (items : List SelectItem) : Result (Step × Layout) := do
  let columns ← items.mapM (Compiling.itemColumns layout)
  return (.projection (columns.flatten.map (·.1)), ⟨columns.flatten.map (·.2)⟩)

def distinctStep (select : Select) : Option Step :=
  if select.distinct then some .distinct else none

/-- The steps of the clauses after WHERE, on rows of the given layout. -/
def outputs (layout : Layout) (select : Select) : Result (List Step × Layout) := do
  let (groups, grouped) ← grouping layout select
  let having ← condition grouped select.having
  let (projected, last) ← projection grouped select.items
  return (groups.toList ++ having.toList ++ [projected] ++ (distinctStep select).toList, last)

/-- The query of a select whose rows before grouping are given. -/
def withOutputs (select : Select) (found : Query × Option Step × Layout) :
    Result (Query × Layout) := do
  let (steps, layout) ← outputs found.2.2 select
  return (.sequence "select" found.1 (found.2.1.toList ++ steps), layout)

/-- The query of a select and the layout of its rows. -/
def ofSelect (schema : Schema) (select : Select) : Result (Query × Layout) :=
  rows schema select >>= withOutputs select

/-! ## Tables are planned -/

section

variable {context : Context} {schema : Schema}

/-- The tasks of queries and steps can be run. -/
theorem runnable_task (query : Query) : query.task.runnable = .ok query.task := by
  cases query <;> rfl

theorem runnable_step (step : Step) : step.task.runnable = .ok step.task := by
  cases step <;> rfl

theorem planner_sequence (name : String) (first : Query) (steps : List Step) :
    Planner.inMemory (.sequence name (first.task :: steps.map Step.task)) =
      .ok (Query.sequence name first steps).task := by
  have hmap : ∀ tasks : List Task, (∀ task ∈ tasks, task.runnable = .ok task) →
      tasks.mapM Task.runnable = .ok tasks := by
    intro tasks
    induction tasks with
    | nil => intro _; rfl
    | cons task rest ih =>
      intro h
      rw [List.mapM_cons, h task List.mem_cons_self,
        ih fun other hother => h other (List.mem_cons_of_mem _ hother)]
      rfl
  have hrunnable : ∀ task ∈ first.task :: steps.map Step.task, task.runnable = .ok task := by
    intro task htask
    rcases List.mem_cons.mp htask with rfl | hstep
    · exact runnable_task first
    · obtain ⟨step, -, rfl⟩ := List.mem_map.mp hstep
      exact runnable_step step
  show (do return Task.inSequence name (← List.mapM Task.runnable _) : Result Task) = _
  rw [hmap _ hrunnable]
  rfl

theorem planner_join (kind : Sql.JoinKind) (on : Bound) (rightWidth : Nat) (left right : Query) :
    Planner.inMemory (.join kind left.task right.task on rightWidth) =
      .ok (Query.join kind on rightWidth left right).task := by
  show (do
    let left ← left.task.runnable
    return Task.joining kind on rightWidth left (← right.task.runnable) : Result Task) = _
  rw [runnable_task, runnable_task]
  rfl

theorem does_resolve (hschema : context.schema = some schema) (table : Sql.TableRef) :
    Planning.Does context (SourcePlan.resolve table) (SourcePlan.ofRef schema table) :=
  Planning.does_bind (Planning.does_resolveTable hschema table.name) fun _ _ => Planning.does_pure _

/-- The task that filters the rows of a table. -/
theorem does_sourceCondition (hplanner : context.planner = Planner.inMemory) (plan : SourcePlan)
    (expr : Option Expr) :
    Planning.Does context (plan.condition expr)
      ((expr.mapM (Bound.bind plan.layout)).map
        (Option.map fun bound => (Step.filter bound).task)) := by
  cases expr with
  | none => exact Planning.does_pure none
  | some expr =>
    have h : Planning.Does context (plan.condition (some expr))
        (Bound.bind plan.layout expr >>= fun bound =>
          Planner.inMemory (.filter bound) >>= fun task => .ok (some task)) :=
      Planning.does_bind (Planning.does_ofResult _) fun bound _ =>
        Planning.does_bind (Planning.does_inMemory hplanner _) fun task _ =>
          Planning.does_pure (some task)
    have hmap : ((some expr).mapM (Bound.bind plan.layout)).map
          (Option.map fun bound => (Step.filter bound).task) =
        (Bound.bind plan.layout expr >>= fun bound =>
          Planner.inMemory (.filter bound) >>= fun task => .ok (some task)) := by
      rw [Option.mapM_some]
      cases Bound.bind plan.layout expr <;> rfl
    rw [hmap]
    exact h

/-- The tasks that read a table and filter its rows. -/
theorem does_filtered (hplanner : context.planner = Planner.inMemory) (plan : SourcePlan)
    (name : String) :
    Planning.Does context (plan.filtered name) ((plan.query name).map Query.task) := by
  have h : Planning.Does context (plan.filtered name)
      (Planner.inMemory (.source plan.binding plan.table) >>= fun scan =>
        (plan.filter.mapM (Bound.bind plan.layout)).map
            (Option.map fun bound => (Step.filter bound).task) >>= fun filter =>
          Planner.inMemory
            (.sequence (name ++ "(" ++ plan.binding ++ ")") (scan :: filter.toList))) :=
    Planning.does_bind (Planning.does_inMemory hplanner _) fun scan _ =>
      Planning.does_bind (does_sourceCondition hplanner plan plan.filter) fun filter _ =>
        Planning.does_inMemory hplanner _
  have hquery : (plan.query name).map Query.task =
      (Planner.inMemory (.source plan.binding plan.table) >>= fun scan =>
        (plan.filter.mapM (Bound.bind plan.layout)).map
            (Option.map fun bound => (Step.filter bound).task) >>= fun filter =>
          Planner.inMemory
            (.sequence (name ++ "(" ++ plan.binding ++ ")") (scan :: filter.toList))) := by
    unfold SourcePlan.query
    cases plan.filter.mapM (Bound.bind plan.layout) with
    | error error => rfl
    | ok filter => cases filter <;> rfl
  rw [hquery]
  exact h

/-- The tasks that join further sides. -/
theorem does_extend (hplanner : context.planner = Planner.inMemory) :
    ∀ (rest : List (Sql.Join × Query × Layout)) (query : Query) (layout : Layout),
      Planning.Does context
        (JoinPlan.extend query.task layout (rest.map fun side => (side.1, side.2.1.task, side.2.2)))
        ((joinAll query layout rest).map fun found => (found.1.task, found.2))
  | [], query, layout => Planning.does_pure _
  | (added, right, rightLayout) :: rest, query, layout => by
    have h : Planning.Does context
        (JoinPlan.extend query.task layout
          (((added, right, rightLayout) :: rest).map fun side => (side.1, side.2.1.task, side.2.2)))
        (Bound.bind (layout.append rightLayout) added.on >>= fun on =>
          (joinAll (.join added.kind on rightLayout.width query right) (layout.append rightLayout)
            rest).map fun found => (found.1.task, found.2)) :=
      Planning.does_bind (Planning.does_ofResult _) fun on _ => by
        have hrest := does_extend hplanner rest
          (.join added.kind on rightLayout.width query right) (layout.append rightLayout)
        have hmake := Planning.does_inMemory hplanner
          (.join added.kind query.task right.task on rightLayout.width)
        rw [planner_join] at hmake
        exact Planning.does_then hmake hrest
    rw [joinAll]
    cases hbind : Bound.bind (layout.append rightLayout) added.on with
    | error error => rw [hbind] at h; exact h
    | ok on => rw [hbind] at h; exact h

/-- The tasks of several tables, each filtered by its own condition. -/
theorem does_joinSides (hplanner : context.planner = Planner.inMemory) (clause : Sql.From)
    (shared : List SourcePlan × Option Expr) :
    Planning.Does context
      (do
        let sides ← Planning.collect (shared.1.map SourcePlan.joinSide)
        match sides, shared.1.map (·.layout) with
        | first :: rights, layout :: layouts =>
          let (task, layout) ← JoinPlan.extend first layout (clause.joins.zip (rights.zip layouts))
          return (⟨task, layout, shared.2⟩ : JoinPlan)
        | _, _ => throw (.internal "FROM without any sources"))
      ((joinSides clause shared.1).map fun found =>
        (⟨found.1.task, found.2, shared.2⟩ : JoinPlan)) := by
  have hsides : Planning.Does context (Planning.collect (shared.1.map SourcePlan.joinSide))
      ((Result.collect (shared.1.map (SourcePlan.query "join_side"))).map
        (List.map Query.task)) := by
    rw [← Result.collect_map, List.map_map]
    refine Planning.does_collect ?_
    rw [List.forall₂_map_left_iff, List.forall₂_map_right_iff, List.forall₂_same]
    exact fun plan _ => does_filtered hplanner plan "join_side"
  unfold joinSides
  cases hcollect : Result.collect (shared.1.map (SourcePlan.query "join_side")) with
  | error error =>
    rw [hcollect] at hsides
    exact Planning.does_bind (f := fun _ => .error error) hsides fun _ h => by cases h
  | ok sides =>
    rw [hcollect] at hsides
    refine Planning.does_then hsides ?_
    cases sides with
    | nil => exact Planning.does_throw _
    | cons first rights =>
      cases hlayouts : shared.1.map (·.layout) with
      | nil => exact Planning.does_throw _
      | cons layout layouts =>
        have hzip : (clause.joins.zip (rights.zip layouts)).map
              (fun side => (side.1, side.2.1.task, side.2.2)) =
            clause.joins.zip ((rights.map Query.task).zip layouts) := by
          rw [List.zip_map_left, List.zip_map_right]
          rfl
        have hextend := does_extend hplanner (clause.joins.zip (rights.zip layouts)) first layout
        rw [hzip] at hextend
        have h := Planning.does_map (fun found => (⟨found.1, found.2, shared.2⟩ : JoinPlan)) hextend
        rw [Result.map_map] at h
        exact h

/-- The tasks of several tables under a condition. -/
theorem does_ofJoins (hschema : context.schema = some schema)
    (hplanner : context.planner = Planner.inMemory) (clause : Sql.From)
    (condition : Option Expr) :
    Planning.Does context (JoinPlan.ofFrom clause condition)
      ((ofJoins schema clause condition).map fun found =>
        (⟨found.1.task, found.2.1, found.2.2⟩ : JoinPlan)) := by
  have hplans : Planning.Does context (Planning.collect (clause.tables.map SourcePlan.resolve))
      (Result.collect (clause.tables.map (SourcePlan.ofRef schema))) := by
    refine Planning.does_collect ?_
    rw [List.forall₂_map_left_iff, List.forall₂_map_right_iff, List.forall₂_same]
    exact fun table _ => does_resolve hschema table
  unfold ofJoins
  cases hcollect : Result.collect (clause.tables.map (SourcePlan.ofRef schema)) with
  | error error =>
    rw [hcollect] at hplans
    exact Planning.does_bind (f := fun _ => .error error) hplans fun _ h => by cases h
  | ok plans =>
    rw [hcollect] at hplans
    refine Planning.does_then hplans ?_
    have h := does_joinSides hplanner clause (share clause condition plans)
    have hmap : (Except.ok plans >>= fun plans =>
          joinSides clause (share clause condition plans).1 >>= fun found =>
            .ok (found.1, found.2, (share clause condition plans).2) :
              Result (Query × Layout × Option Expr)).map
          (fun found => (⟨found.1.task, found.2.1, found.2.2⟩ : JoinPlan)) =
        (joinSides clause (share clause condition plans).1).map fun found =>
          (⟨found.1.task, found.2, (share clause condition plans).2⟩ : JoinPlan) := by
      rw [Result.ok_bind]
      cases joinSides clause (share clause condition plans).1 <;> rfl
    exact hmap ▸ h

/-! ## Clauses are compiled -/

variable {before : Layout}

/-- The task for the tables of a FROM clause. -/
theorem does_tables (hschema : context.schema = some schema)
    (hplanner : context.planner = Planner.inMemory) (clause : Sql.From) (filter : Option Expr) :
    Compiling.Does context before (Compiling.tables clause filter)
      ((ofTables schema clause filter).map fun found =>
        ((found.1.task, found.2.2), found.2.1)) := by
  unfold Compiling.tables ofTables
  by_cases hjoins : clause.joins.isEmpty = true
  · rw [if_pos hjoins, if_pos hjoins, Result.map_bind]
    refine Compiling.does_plan_bind (does_resolve hschema clause.table) fun source _ => ?_
    rw [Result.map_bind]
    refine Compiling.does_then (Compiling.does_setLayout source.layout) ?_
    have h : Compiling.Does context source.layout
        ((·, (none : Option Expr)) <$>
          Compiling.plan (SourcePlan.select { source with filter := filter })) _ :=
      Compiling.does_map (·, none) (Compiling.does_plan
        (does_filtered hplanner { source with filter := filter } "source_select"))
    rw [Result.map_map, Result.map_map] at h
    cases hquery : { source with filter := filter }.query "source_select" with
    | error error => rw [hquery] at h; exact h
    | ok query => rw [hquery] at h; exact h
  · rw [if_neg hjoins, if_neg hjoins]
    have hmap : (ofJoins schema clause filter).map
          (fun found => ((found.1.task, found.2.2), found.2.1)) =
        (ofJoins schema clause filter).map
            (fun found => (⟨found.1.task, found.2.1, found.2.2⟩ : JoinPlan)) >>= fun joined =>
          .ok ((joined.task, joined.residual), joined.layout) := by
      cases ofJoins schema clause filter <;> rfl
    rw [hmap]
    exact Compiling.does_plan_bind (does_ofJoins hschema hplanner clause filter) fun joined _ =>
      Compiling.does_then (Compiling.does_setLayout joined.layout) (Compiling.does_pure _)

/-- The task that filters the rows so far by a condition. -/
theorem does_condition (hplanner : context.planner = Planner.inMemory) (expr : Option Expr) :
    Compiling.Does context before (Compiling.condition expr)
      ((condition before expr).map fun step => (step.map Step.task, before)) := by
  cases expr with
  | none => exact Compiling.does_pure none
  | some expr =>
    refine Compiling.does_get fun compilation hlayout => ?_
    have hmap : (condition before (some expr)).map
          (fun step => (step.map Step.task, before)) =
        Bound.bind before expr >>= fun bound => .ok (some (Step.filter bound).task, before) := by
      rw [condition, Option.mapM_some]
      cases Bound.bind before expr <;> rfl
    rw [hlayout, hmap]
    exact Compiling.does_ofResult_bind fun bound _ =>
      Compiling.does_then (Compiling.does_inMemory hplanner _) (Compiling.does_pure _)

/-- The task that groups the rows so far. -/
theorem does_grouping (hplanner : context.planner = Planner.inMemory) (select : Select) :
    Compiling.Does context before (Compiling.grouping select)
      ((grouping before select).map fun found => (found.1.map Step.task, found.2)) := by
  refine Compiling.does_get fun compilation hlayout => ?_
  rw [hlayout, grouping, Result.map_bind]
  refine Compiling.does_ofResult_bind fun aggregates _ => ?_
  split
  · exact Compiling.does_pure none
  · rw [Result.map_bind]
    refine Compiling.does_ofResult_bind fun keys _ => ?_
    exact Compiling.does_then (Compiling.does_inMemory hplanner _)
      (Compiling.does_then (Compiling.does_setLayout _) (Compiling.does_pure _))

/-- The task that evaluates the select list. -/
theorem does_projection (hplanner : context.planner = Planner.inMemory) (items : List SelectItem) :
    Compiling.Does context before (Compiling.projection items)
      ((projection before items).map fun found => (some found.1.task, found.2)) := by
  refine Compiling.does_get fun compilation hlayout => ?_
  rw [hlayout, projection, Result.map_bind]
  refine Compiling.does_ofResult_bind fun columns _ => ?_
  exact Compiling.does_then (Compiling.does_inMemory hplanner _)
    (Compiling.does_then (Compiling.does_setLayout _) (Compiling.does_pure _))

/-! ## Selects are compiled -/

/-- The tasks of a query and of the step after it. -/
def rowTasks (found : Query × Option Step × Layout) : List Task × Layout :=
  (found.1.task :: (found.2.1.map Step.task).toList, found.2.2)

/-- The tasks for the FROM and WHERE clauses, if the WHERE clause is left to the job. -/
theorem does_rows (hschema : context.schema = some schema)
    (hplanner : context.planner = Planner.inMemory) {visitor : Option Visitor} {select : Select}
    (hleaves : Compiling.Leaves context visitor (.condition select.condition)) :
    Compiling.Does context .empty (Compiling.rows visitor select)
      ((rows schema select).map rowTasks) := by
  unfold Compiling.rows rows
  cases select.source with
  | none =>
    dsimp only
    rw [Result.map_bind]
    refine Compiling.does_then (Compiling.does_inMemory hplanner _) ?_
    exact Compiling.does_bind_map (Compiling.does_clause hleaves (does_condition hplanner _))
      fun filter _ => Compiling.does_pure _
  | some clause =>
    dsimp only
    rw [Result.map_bind]
    refine Compiling.does_then (Compiling.does_consult_leaves hleaves) ?_
    refine Compiling.does_bind_map (does_tables hschema hplanner clause select.condition)
      fun found _ => ?_
    rw [Result.map_bind]
    exact Compiling.does_bind_map (does_condition hplanner found.2.2)
      fun filter _ => Compiling.does_pure _

/-- The steps after the rows are put behind them in one sequence. -/
theorem does_sequence (hplanner : context.planner = Planner.inMemory)
    (rows : Query × Option Step × Layout) (groups having last : Option Step)
    (projected : Step × Layout) :
    Compiling.Does context projected.2
      (Compiling.make (.sequence "select" ((rowTasks rows).1 ++ (groups.map Step.task).toList ++
        (having.map Step.task).toList ++ (some projected.1.task).toList ++
          (last.map Step.task).toList)))
      (.ok ((Query.sequence "select" rows.1 (rows.2.1.toList ++
        (groups.toList ++ having.toList ++ [projected.1] ++ last.toList))).task,
          projected.2)) := by
  have htasks : (rowTasks rows).1 ++ (groups.map Step.task).toList ++
      (having.map Step.task).toList ++ (some projected.1.task).toList ++
        (last.map Step.task).toList =
      rows.1.task :: (rows.2.1.toList ++ (groups.toList ++ having.toList ++ [projected.1] ++
        last.toList)).map Step.task := by
    simp [rowTasks, Option.toList_map]
  have hmake : Compiling.Does context projected.2 (Compiling.make _) _ :=
    Compiling.does_inMemory hplanner
      (.sequence "select" (rows.1.task :: (rows.2.1.toList ++ (groups.toList ++
        having.toList ++ [projected.1] ++ last.toList)).map Step.task))
  rw [planner_sequence] at hmake
  rw [htasks]
  exact hmake

/-- **The clauses after WHERE are compiled into their steps**, whatever the rows before them are. -/
theorem does_withOutputs (hplanner : context.planner = Planner.inMemory)
    {visitor : Option Visitor} {select : Select} {found : Result (Query × Option Step × Layout)}
    (hrows : Compiling.Does context .empty (Compiling.rows visitor select) (found.map rowTasks))
    (hgrouping : Compiling.Leaves context visitor (.grouping select))
    (hhaving : Compiling.Leaves context visitor (.having select.having))
    (hprojection : Compiling.Leaves context visitor (.projection select.items)) :
    Compiling.Does context before (Compiling.select visitor select)
      ((found >>= withOutputs select).map fun query => (query.1.task, query.2)) := by
  refine Compiling.does_then (Compiling.does_setLayout .empty) ?_
  rw [Result.map_bind]
  refine Compiling.does_bind_map hrows fun rows _ => ?_
  rw [withOutputs, outputs, Result.map_bind, bind_assoc]
  refine Compiling.does_bind_map (Compiling.does_clause hgrouping (does_grouping hplanner select))
    fun groups _ => ?_
  dsimp only
  rw [bind_assoc]
  refine Compiling.does_bind_map
    (Compiling.does_clause hhaving (does_condition hplanner select.having)) fun having _ => ?_
  rw [bind_assoc]
  refine Compiling.does_bind_map
    (Compiling.does_clause hprojection (does_projection hplanner select.items))
      fun projected _ => ?_
  unfold distinctStep
  by_cases hdistinct : select.distinct = true
  · rw [if_pos hdistinct, if_pos hdistinct]
    exact Compiling.does_then (Compiling.does_map some (Compiling.does_inMemory hplanner .distinct))
      (does_sequence hplanner rows groups.1 having (some .distinct) projected)
  · rw [if_neg hdistinct, if_neg hdistinct]
    exact Compiling.does_then (Compiling.does_pure none)
      (does_sequence hplanner rows groups.1 having none projected)

end

end Query
end SqlPipeline
