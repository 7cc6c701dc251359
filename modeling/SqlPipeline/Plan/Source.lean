import SqlPipeline.Error.List
import SqlPipeline.Plan.Context
import SqlPipeline.Plan.Filter

/-!
# Sources

The tables that a statement reads: what their names stand for, the layout of their rows, and the
tasks that read them.
-/

namespace SqlPipeline

/-- The table a name stands for. It may be qualified by the name of the schema. -/
def resolveTable (name : Sql.ObjectName) : Planning ResolvedTable := do
  let missing : Error := .tableNotFound name.text
  match (← read).schema with
  | none => throw .noSchemaSelected
  | some schema =>
    let own : Option Sql.Ident :=
      match name.parts with
      | [table] => some table
      | [qualifier, table] =>
        if Text.sameAsciiCase qualifier.key schema.name then some table else none
      | _ => none
    match own with
    | none => throw missing
    | some table =>
      let key := Schema.keyOf table.key
      match schema.get? key with
      | none => throw missing
      | some found => return ⟨key, found.definition⟩

/-- What is known about a table that a statement reads. -/
structure SourcePlan where
  /-- The name by which the statement refers to the table. -/
  binding : String
  table : ResolvedTable
  layout : Layout
  /-- The condition under which its rows are read. -/
  filter : Option Sql.Expr
deriving DecidableEq, Repr, Inhabited

namespace SourcePlan

def resolve (table : Sql.TableRef) : Planning SourcePlan := do
  let found ← resolveTable table.name
  return ⟨table.binding, found, .ofTable table.binding found.definition, none⟩

def scan (plan : SourcePlan) : Planning Task :=
  Planning.make (.source plan.binding plan.table)

/-- The task that filters rows of the table, if there is a condition. -/
def condition (plan : SourcePlan) (expr : Option Sql.Expr) : Planning (Option Task) := do
  match expr with
  | none => return none
  | some expr =>
    let predicate ← Planning.ofResult (Bound.bind plan.layout expr)
    return some (← Planning.make (.filter predicate))

/-- Reads the table and filters its rows. -/
def filtered (plan : SourcePlan) (name : String) : Planning Task := do
  let scan ← plan.scan
  let filter ← plan.condition plan.filter
  Planning.make (.sequence (name ++ "(" ++ plan.binding ++ ")") (scan :: filter.toList))

/-- The task for the only table of a statement. -/
def select (plan : SourcePlan) : Planning Task :=
  plan.filtered "source_select"

/-- The task for one of several tables of a statement. -/
def joinSide (plan : SourcePlan) : Planning Task :=
  plan.filtered "join_side"

/-- Leaves to each table the part of a condition that can be bound to its rows only. Gives what
remains of the condition. -/
def pushDown (plans : List SourcePlan) (filter : Sql.Expr) : List SourcePlan × Option Sql.Expr :=
  let layouts := plans.map (·.layout)
  (plans.zipIdx.map fun (plan, i) => { plan with filter := pushedTo layouts filter i },
    residual layouts filter)

end SourcePlan

namespace Planning

variable {α : Type}

/-- Takes all steps, and fails with the errors of those that failed. -/
def collect (steps : List (Planning α)) : Planning (List α) := do
  let results ← steps.mapM attempt
  let (values, errors) := results.foldl (fun (values, errors) result =>
    let (value, errors) := ErrorList.appendResult errors result
    (values ++ value.toList, errors)) ([], ErrorList.empty)
  match errors.error? with
  | some error => throw error
  | none => return values

end Planning

/-- The task that joins tables, the layout of the joined rows, and the condition that remains to
be checked on them. Conditions are left to single tables in inner joins only. -/
structure JoinPlan where
  task : Task
  layout : Layout
  residual : Option Sql.Expr
deriving Repr, Inhabited

namespace JoinPlan

/-- Joins further sides to a task, from left to right. -/
def extend (task : Task) (layout : Layout) :
    List (Sql.Join × Task × Layout) → Planning (Task × Layout)
  | [] => return (task, layout)
  | (join, right, rightLayout) :: rest => do
    let joined := layout.append rightLayout
    let on ← Planning.ofResult (Bound.bind joined join.on)
    let task ← Planning.make (.join join.kind task right on rightLayout.width)
    extend task joined rest

/-- Plans the tables of a FROM clause with joins, under a condition. -/
def ofFrom (clause : Sql.From) (condition : Option Sql.Expr) : Planning JoinPlan := do
  let plans ← Planning.collect (clause.tables.map SourcePlan.resolve)
  let innerOnly := clause.joins.all (·.kind = .inner)
  let (plans, residual) :=
    match condition with
    | some filter => if innerOnly then SourcePlan.pushDown plans filter else (plans, some filter)
    | none => (plans, none)
  let sides ← Planning.collect (plans.map SourcePlan.joinSide)
  match sides, plans.map (·.layout) with
  | first :: rights, layout :: layouts =>
    let (task, layout) ← extend first layout (clause.joins.zip (rights.zip layouts))
    return ⟨task, layout, residual⟩
  | _, _ => throw (.internal "FROM without any sources")

end JoinPlan
end SqlPipeline
