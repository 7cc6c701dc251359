import SqlPipeline.Proofs.Change.Reference
import SqlPipeline.Proofs.Job.Execution
import SqlPipeline.Proofs.Plan.Resolve
import SqlPipeline.Proofs.Query.Basic
import SqlPipeline.Proofs.Table.InMemory

/-!
# Changing statements, planned and run

A statement that changes a table is compiled into at most two tasks: one that has the rows ready,
and one that makes the change. What these are is computed here from the schema and the statement
(`ChangePlan.ofStatement`), and so is what running them comes to: the change is made once, and
either its number is the only row or its error is the only failure (`ChangePlan.gives`).
-/

namespace SqlPipeline

open Sql (Expr Statement)

/-- What a changing statement is compiled into: the table, the change to it, and the rows that the
change is handed. -/
structure ChangePlan where
  table : ResolvedTable
  change : Change
  rows : List Row

namespace ChangePlan

/-! ## Plans of statements -/

/-- The positions of the columns that the values of an INSERT are for. -/
def columnsOf (definition : TableDef) (insert : Sql.Insert) : Result (List Nat) :=
  if insert.columns.isEmpty then .ok (List.range definition.columns.length)
  else Compiling.insertColumns definition [] insert.columns

/-- The plan of an INSERT or UPSERT of values for the given columns. -/
def ofRows (upserts : Bool) (lists : List (List Expr)) (table : ResolvedTable)
    (columns : List Nat) : Result ChangePlan :=
  if upserts ∧ !columns.contains 0 then
    let key := (table.definition.columns.head?.map ColumnDef.name).getD ""
    .error (.plan ("UPSERT requires a value for key column '" ++ key ++ "'"))
  else do
    let rows ← lists.mapM (Compiling.insertRow columns.length)
    return ⟨table, if upserts then .upsert columns else .insert columns, rows⟩

def ofInsert (schema : Schema) (upserts : Bool) (insert : Sql.Insert) : Result ChangePlan := do
  let table ← schema.resolve insert.table
  let columns ← columnsOf table.definition insert
  ofRows upserts insert.rows table columns

def ofUpdate (schema : Schema) (update : Sql.Update) : Result ChangePlan := do
  let table ← schema.resolve update.table
  let layout := update.table.layout table.definition
  let filter ← update.condition.mapM (Bound.bind layout)
  let assignments ← update.assignments.mapM (Compiling.assignment layout)
  return ⟨table, .update assignments filter, []⟩

def ofDelete (schema : Schema) (delete : Sql.Delete) : Result ChangePlan := do
  let table ← schema.resolve delete.table
  let filter ← delete.condition.mapM (Bound.bind (delete.table.layout table.definition))
  return ⟨table, .delete filter, []⟩

def ofStatement (schema : Schema) : Statement → Result ChangePlan
  | .insert rows => ofInsert schema false rows
  | .upsert rows => ofInsert schema true rows
  | .update change => ofUpdate schema change
  | .delete change => ofDelete schema change
  | other => .error (.notImplemented other.kind)

def mutation (plan : ChangePlan) : Task :=
  Task.mutation plan.table.key plan.table.definition.name plan.change

def own (plan : ChangePlan) : String × Work :=
  (plan.change.name ++ "(" ++ plan.table.definition.name ++ ")",
    .mutation plan.table.key plan.change)

def task (plan : ChangePlan) : Task :=
  if plan.change.readsRows then
    Task.inSequence plan.change.name [Task.values plan.rows, plan.mutation]
  else Task.inSequence plan.change.name [plan.mutation]

/-! ## Statements are compiled into their plans -/

section

variable {context : Context} {schema : Schema} {before : Layout}

/-- What is compiled is the task of the plan, which gives the number of rows it is about. -/
def compiled (plan : ChangePlan) : Task × Layout :=
  (plan.task, Compiling.countLayout)

/-- The tasks that hand rows over and make the change. -/
theorem does_handing (hplanner : context.planner = Planner.inMemory) (table : ResolvedTable)
    (change : Change) (rows : List Row) (hreads : change.readsRows = true) :
    Compiling.Does context before (do
        let values ← Compiling.make (.values rows)
        let mutation ← Compiling.make (.mutation table change)
        let task ← Compiling.make (.sequence change.name [values, mutation])
        Compiling.setLayout Compiling.countLayout
        return task)
      (.ok (compiled ⟨table, change, rows⟩)) := by
  have htask : (ChangePlan.mk table change rows).task = Task.inSequence change.name
      [Task.values rows, Task.mutation table.key table.definition.name change] := by
    unfold task
    rw [if_pos hreads]
    rfl
  unfold compiled
  rw [htask]
  refine Compiling.does_then (Compiling.does_inMemory hplanner (.values rows)) ?_
  refine Compiling.does_then (Compiling.does_inMemory hplanner (.mutation table change)) ?_
  refine Compiling.does_then (Compiling.does_inMemory hplanner (.sequence change.name _)) ?_
  exact Compiling.does_then (Compiling.does_setLayout _) (Compiling.does_pure _)

/-- The task that makes a change to the rows of a table. -/
theorem does_changeTask (hplanner : context.planner = Planner.inMemory) (table : ResolvedTable)
    (change : Change) (hreads : change.readsRows = false) :
    Compiling.Does context before (Compiling.changeTask table change)
      (.ok (compiled ⟨table, change, []⟩)) := by
  have htask : (ChangePlan.mk table change []).task = Task.inSequence change.name
      [Task.mutation table.key table.definition.name change] := by
    unfold task
    rw [if_neg (by simp [hreads])]
    rfl
  unfold compiled
  rw [htask]
  refine Compiling.does_then (Compiling.does_inMemory hplanner (.mutation table change)) ?_
  refine Compiling.does_then (Compiling.does_inMemory hplanner (.sequence change.name _)) ?_
  exact Compiling.does_then (Compiling.does_setLayout _) (Compiling.does_pure _)

/-- Once its columns are known, an INSERT is compiled into its plan. -/
theorem does_ofRows (hplanner : context.planner = Planner.inMemory) (upserts : Bool)
    (lists : List (List Expr)) (table : ResolvedTable) (columns : List Nat) :
    Compiling.Does context before (do
        if upserts ∧ !columns.contains 0 then
          let key := (table.definition.columns.head?.map ColumnDef.name).getD ""
          throw (.plan ("UPSERT requires a value for key column '" ++ key ++ "'"))
        let rows ← Compiling.ofResult (lists.mapM (Compiling.insertRow columns.length))
        let values ← Compiling.make (.values rows)
        let change := if upserts then Change.upsert columns else Change.insert columns
        let mutation ← Compiling.make (.mutation table change)
        let task ← Compiling.make (.sequence change.name [values, mutation])
        Compiling.setLayout Compiling.countLayout
        return task)
      ((ofRows upserts lists table columns).map compiled) := by
  unfold ofRows
  by_cases hkey : upserts = true ∧ (!columns.contains 0) = true
  · rw [if_pos hkey, if_pos hkey]
    exact Compiling.does_throw_bind _ _
  · rw [if_neg hkey, if_neg hkey, Result.map_bind]
    refine Compiling.does_ofResult_bind fun rows _ => ?_
    have hreads : (if upserts then Change.upsert columns else Change.insert columns).readsRows =
        true := by
      cases upserts <;> rfl
    exact does_handing hplanner table _ rows hreads

theorem does_insert (hschema : context.schema = some schema)
    (hplanner : context.planner = Planner.inMemory) (upserts : Bool) (insert : Sql.Insert) :
    Compiling.Does context before (Compiling.insert upserts insert)
      ((ofInsert schema upserts insert).map compiled) := by
  unfold Compiling.insert ofInsert
  rw [Result.map_bind]
  refine Compiling.does_then (Compiling.does_setLayout .empty) ?_
  refine Compiling.does_plan_bind (Planning.does_resolveTable hschema insert.table)
    fun table _ => ?_
  rw [Result.map_bind]
  unfold columnsOf
  dsimp only
  by_cases hnone : insert.columns.isEmpty = true
  · rw [if_pos hnone, if_pos hnone]
    exact Compiling.does_then (Compiling.does_pure _) (does_ofRows hplanner upserts _ table _)
  · rw [if_neg hnone, if_neg hnone]
    exact Compiling.does_ofResult_bind fun columns _ => does_ofRows hplanner upserts _ table columns

/-- The table that is changed, its layout and the bound WHERE. -/
theorem does_tableCondition (hschema : context.schema = some schema) (name : Sql.ObjectName)
    (condition : Option Expr) :
    Compiling.Does context before (Compiling.tableCondition name condition)
      ((schema.resolve name >>= fun table =>
        condition.mapM (Bound.bind (name.layout table.definition)) >>= fun filter =>
          .ok (table, name.layout table.definition, filter)).map (·, before)) := by
  unfold Compiling.tableCondition
  rw [Result.map_bind]
  refine Compiling.does_plan_bind (Planning.does_resolveTable hschema name) fun table _ => ?_
  rw [Result.map_bind]
  exact Compiling.does_ofResult_bind fun filter _ => Compiling.does_pure _

theorem does_update (hschema : context.schema = some schema)
    (hplanner : context.planner = Planner.inMemory) (update : Sql.Update) :
    Compiling.Does context before (Compiling.update update)
      ((ofUpdate schema update).map compiled) := by
  -- the table and the WHERE come first, as in every statement on the rows of a table
  have hplan : ofUpdate schema update = ((schema.resolve update.table >>= fun table =>
      update.condition.mapM (Bound.bind (update.table.layout table.definition)) >>= fun filter =>
        .ok (table, update.table.layout table.definition, filter)) >>= fun found =>
      update.assignments.mapM (Compiling.assignment found.2.1) >>= fun assignments =>
        .ok ⟨found.1, .update assignments found.2.2, []⟩ : Result ChangePlan) := by
    unfold ofUpdate
    rw [bind_assoc]
    congr 1
    funext table
    rw [bind_assoc]
    rfl
  rw [hplan, Result.map_bind]
  refine Compiling.does_then (Compiling.does_setLayout .empty) ?_
  refine Compiling.does_bind_map (does_tableCondition hschema update.table update.condition)
    fun found _ => ?_
  rw [Result.map_bind]
  exact Compiling.does_ofResult_bind fun assignments _ =>
    does_changeTask hplanner found.1 (.update assignments found.2.2) rfl

theorem does_delete (hschema : context.schema = some schema)
    (hplanner : context.planner = Planner.inMemory) (delete : Sql.Delete) :
    Compiling.Does context before (Compiling.delete delete)
      ((ofDelete schema delete).map compiled) := by
  have hplan : ofDelete schema delete = ((schema.resolve delete.table >>= fun table =>
      delete.condition.mapM (Bound.bind (delete.table.layout table.definition)) >>= fun filter =>
        .ok (table, delete.table.layout table.definition, filter)) >>= fun found =>
      .ok ⟨found.1, .delete found.2.2, []⟩ : Result ChangePlan) := by
    unfold ofDelete
    rw [bind_assoc]
    congr 1
    funext table
    rw [bind_assoc]
    rfl
  rw [hplan, Result.map_bind]
  refine Compiling.does_then (Compiling.does_setLayout .empty) ?_
  exact Compiling.does_bind_map (does_tableCondition hschema delete.table delete.condition)
    fun found _ => does_changeTask hplanner found.1 (.delete found.2.2) rfl

/-- **A statement that changes a table is compiled into its plan.** -/
theorem does_statement (hschema : context.schema = some schema)
    (hplanner : context.planner = Planner.inMemory) {visitor : Option Visitor}
    {statement : Statement} {name : Sql.ObjectName} (htarget : statement.target? = some name) :
    Compiling.Does context before (Compiling.statement visitor statement)
      ((ofStatement schema statement).map compiled) := by
  cases statement with
  | insert rows => exact does_insert hschema hplanner false rows
  | upsert rows => exact does_insert hschema hplanner true rows
  | update change => exact does_update hschema hplanner change
  | delete change => exact does_delete hschema hplanner change
  | _ => cases htarget

end

/-! ## Plans are run -/

section

variable {signals : Signals} {schema : Schema} {plan : ChangePlan} {table : Table}

/-- What comes out of a change: the number of rows it is about, or its error. -/
def outcome : Result Nat → Flow
  | .ok n => .ofRows [[Value.count n]]
  | .error error => ⟨[], fun _ => some (.error error)⟩

/-- A change that is not told to stop is made with the rows it is handed. -/
theorem changing_eq (hshutdown : signals.shutdown = false)
    (hrows : plan.change.readsRows = false → plan.rows = []) :
    Work.changing signals (.ofRows plan.rows) plan.table.key plan.change schema =
      (outcome (Work.applyChange plan.table.key plan.change plan.rows schema).1,
        (Work.applyChange plan.table.key plan.change plan.rows schema).2) := by
  have hhanded : (if plan.change.readsRows then (Flow.ofRows plan.rows).rows else []) =
      plan.rows := by
    cases hreads : plan.change.readsRows with
    | true => rfl
    | false => exact (hrows hreads).symm
  unfold Work.changing
  rw [if_neg (by simp [hshutdown]), hhanded]
  rcases Work.applyChange plan.table.key plan.change plan.rows schema with ⟨result, after⟩
  cases result with
  | error error => rfl
  | ok n => simp only [hshutdown]; rfl

/-- The flow out of the tasks of a plan under any signals, and the tables that they leave. -/
def made (plan : ChangePlan) (signals : Signals) (schema : Schema) : Flow × Schema :=
  Work.changing signals
    (if plan.change.readsRows then Work.sending signals .empty plan.rows else .empty)
    plan.table.key plan.change schema

/-- The tasks of a plan whose table is there and has the columns are set up and run, whatever they
are told. -/
theorem gives_made (htable : schema.get? plan.table.key = some table)
    (haccess : table.access = .readWrite)
    (hcolumns : plan.change.beyond? table.definition.columns.length = none) :
    plan.task.Gives signals schema (plan.made signals schema).1 (plan.made signals schema).2 := by
  have hprepared : (Work.mutation plan.table.key plan.change).prepared schema =
      .ok (.mutation plan.table.key plan.change) := by
    have hwritable : Change.checkWritable table = .ok () := by
      simp [Change.checkWritable, Table.isWritable, haccess]
    have hcheck : plan.change.checkColumns table = .ok () := by
      simp [Change.checkColumns, hcolumns]
    simp only [Work.prepared, Leaf.tableOf, htable, Result.ok_bind, hwritable, hcheck]
    rfl
  unfold task made
  -- an INSERT is fed its rows by another task, all other changes stand alone
  by_cases hreads : plan.change.readsRows = true
  · have hvalues : (Task.values plan.rows).Gives signals schema
        ((Work.values plan.rows).flow signals "values" .empty schema).1 schema :=
      Task.gives_work rfl rfl rfl
    have hown : ∀ own ∈ [plan.own], own.2.readsInput = true := by
      simpa [own, Work.readsInput] using hreads
    have hownPrepared : ∀ own ∈ [plan.own], own.2.prepared schema = .ok own.2 := by
      simpa [own] using hprepared
    rw [if_pos hreads, if_pos hreads]
    exact Task.gives_sequence hvalues hown hownPrepared
  · have hinput : (Work.mutation plan.table.key plan.change).readsInput = false := by
      rwa [Bool.not_eq_true] at hreads
    have hmutation : plan.mutation.Gives signals schema
        (Work.changing signals .empty plan.table.key plan.change schema).1
        (Work.changing signals .empty plan.table.key plan.change schema).2 :=
      Task.gives_work hinput hprepared rfl
    rw [if_neg hreads, if_neg hreads]
    exact Task.gives_sequence hmutation (List.forall_mem_nil _) (List.forall_mem_nil _)

/-- Unless they are told to stop, the tasks of a plan make its change once. -/
theorem made_eq (hshutdown : signals.shutdown = false)
    (hrows : plan.change.readsRows = false → plan.rows = []) :
    plan.made signals schema =
      (outcome (Work.applyChange plan.table.key plan.change plan.rows schema).1,
        (Work.applyChange plan.table.key plan.change plan.rows schema).2) := by
  rw [← changing_eq hshutdown hrows, made, Query.sending_empty hshutdown]
  cases hreads : plan.change.readsRows with
  | true => rfl
  | false => rw [hrows hreads]; rfl

/-- **A plan whose table is there and has the columns makes its change once.** -/
theorem gives (hshutdown : signals.shutdown = false)
    (hrows : plan.change.readsRows = false → plan.rows = [])
    (htable : schema.get? plan.table.key = some table) (haccess : table.access = .readWrite)
    (hcolumns : plan.change.beyond? table.definition.columns.length = none) :
    plan.task.Gives signals schema
      (outcome (Work.applyChange plan.table.key plan.change plan.rows schema).1)
      (Work.applyChange plan.table.key plan.change plan.rows schema).2 := by
  have hgives : plan.task.Gives signals schema (plan.made signals schema).1
      (plan.made signals schema).2 := gives_made htable haccess hcolumns
  rw [made_eq hshutdown hrows] at hgives
  exact hgives

end

end ChangePlan
end SqlPipeline
