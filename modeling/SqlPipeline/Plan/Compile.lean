import SqlPipeline.Plan.Source
import SqlPipeline.Plan.Visitor
import SqlPipeline.Sql.Script

/-!
# Compiling statements

How a job turns its statement into a task. A visitor, if there is one, is asked first for the
statement and for each clause of a select; what it defers is planned here. While a select is
compiled, the layout is kept of the rows that its tasks so far give.
-/

namespace SqlPipeline

open Sql (Expr Select SelectItem Statement)

/-- What compiling keeps through errors. -/
structure Compilation where
  effects : Effects
  statement : Option Statement
  /-- The columns of the rows that come out of the tasks. -/
  layout : Layout
  /-- The calls made of the visitor. -/
  calls : List Call
deriving Repr, Inhabited

def Compilation.start (config : Config) : Compilation :=
  ⟨⟨.ofConfig config, []⟩, none, .empty, []⟩

abbrev Compiling := ReaderT Context (ExceptT Error (StateM Compilation))

namespace Compiling

variable {α : Type}

def plan (step : Planning α) : Compiling α := fun context => ExceptT.mk do
  let compilation ← get
  let (result, effects) := ((step context).run).run compilation.effects
  set { compilation with effects }
  return result

def ofResult (result : Result α) : Compiling α :=
  plan (Planning.ofResult result)

def make (request : Request) : Compiling Task :=
  plan (Planning.make request)

def setLayout (layout : Layout) : Compiling Unit :=
  modify fun compilation => { compilation with layout }

/-- Asks the visitor. Gives nothing if there is none or if it defers. -/
def consult (visitor : Option Visitor) (call : Call) : Compiling (Option Visit) := do
  match visitor with
  | none => return none
  | some visitor =>
    let history := (← get).calls
    modify fun compilation => { compilation with calls := history ++ [call] }
    let visit ← plan (visitor history call)
    return if visit.isDeferred then none else some visit

/-- The task of a clause: the visitor's, or else the given one. -/
def clause (visitor : Option Visitor) (what : String) (call : Call)
    (own : Compiling (Option Task)) : Compiling (Option Task) := do
  match ← consult visitor call with
  | some visit => return (← ofResult (visit.check what)).task
  | none => own

/-! ### Clauses of a select -/

/-- The task that filters by a condition on the rows so far, if there is one. -/
def condition (expr : Option Expr) : Compiling (Option Task) := do
  match expr with
  | none => return none
  | some expr =>
    let predicate ← ofResult (Bound.bind (← get).layout expr)
    return some (← make (.filter predicate))

/-- The column that an expression makes; a plain reference keeps the column it refers to. -/
def columnFor (layout : Layout) (expr : Expr) (bound : Bound) : Result Layout.Column :=
  match expr, bound with
  | .ident _, .column i | .qualified _, .column i =>
    match layout.columns[i]? with
    | some column => .ok column
    | none => .error (.internal ("Column " ++ toString i ++ " missing from layout"))
  | _, _ => .ok ⟨none, expr.columnName⟩

/-- The column of a group key: that of a plain reference to a table's column, or one that is
computed and named by the text of the key. -/
def keyColumn (layout : Layout) (expr : Expr) (bound : Bound) : Result Layout.Column := do
  let column ← columnFor layout expr bound
  return if column.relation.isNone then ⟨none, expr.text⟩ else column

def groupKeys (layout : Layout) : List Expr → Result (List (Bound × Layout.Column))
  | [] => .ok []
  | expr :: rest => do
    let key ← Bound.bind layout expr
    let column ← keyColumn layout expr key
    return (key, column) :: (← groupKeys layout rest)

/-- The task that groups the rows so far, if the select has groups or aggregates. -/
def grouping (select : Select) : Compiling (Option Task) := do
  let layout := (← get).layout
  let exprs := select.items.filterMap SelectItem.expr? ++ select.having.toList
  let aggregates ← ofResult (Aggregate.collect layout exprs)
  if select.groupBy.isEmpty && aggregates.isEmpty then
    return none
  let keys ← ofResult (groupKeys layout select.groupBy)
  let task ← make (.groupBy (keys.map (·.1)) aggregates)
  setLayout ⟨keys.map (·.2) ++ aggregates.map fun aggregate => ⟨none, aggregate.name⟩⟩
  return some task

/-- The columns at the given positions, as they are. -/
def columnsAt (layout : Layout) (positions : List Nat) : List (Bound × Layout.Column) :=
  positions.filterMap fun i => layout.columns[i]?.map (Bound.column i, ·)

/-- The expressions and columns of an item of a select list. -/
def itemColumns (layout : Layout) : SelectItem → Result (List (Bound × Layout.Column))
  | .all => .ok (columnsAt layout (List.range layout.width))
  | .allOf table =>
    match layout.ofRelation table.baseKey with
    | [] => .error (.tableNotFound table.text)
    | positions => .ok (columnsAt layout positions)
  | .expr value => do
    let bound ← Bound.bind layout value
    return [(bound, ← columnFor layout value bound)]
  | .aliased value name => do
    return [(← Bound.bind layout value, ⟨none, name.key⟩)]

/-- The task that evaluates the select list on the rows so far. -/
def projection (items : List SelectItem) : Compiling (Option Task) := do
  let layout := (← get).layout
  let columns ← ofResult (items.mapM (itemColumns layout))
  let task ← make (.projection (columns.flatten.map (·.1)))
  setLayout ⟨columns.flatten.map (·.2)⟩
  return some task

/-! ### Select -/

/-- The task for the tables of a FROM clause under a condition, and what remains of the
condition. -/
def tables (clause : Sql.From) (filter : Option Expr) : Compiling (Task × Option Expr) := do
  if clause.joins.isEmpty then
    let source ← plan (SourcePlan.resolve clause.table)
    setLayout source.layout
    return (← plan (SourcePlan.select { source with filter }), none)
  else
    let joined ← plan (JoinPlan.ofFrom clause filter)
    setLayout joined.layout
    return (joined.task, joined.residual)

/-- The tasks for the FROM and WHERE clauses. A WHERE clause that the visitor answers is not
split. -/
def rows (visitor : Option Visitor) (select : Select) : Compiling (List Task) := do
  match select.source with
  | none =>
    let values ← make (.values [Row.empty])
    let filter ← clause visitor "WHERE" (.condition select.condition) (condition select.condition)
    return values :: filter.toList
  | some source =>
    match ← consult visitor (.condition select.condition) with
    | some visit =>
      let (task, _) ← tables source none
      return task :: (← ofResult (visit.check "WHERE")).task.toList
    | none =>
      let (task, residual) ← tables source select.condition
      return task :: (← condition residual).toList

def select (visitor : Option Visitor) (select : Select) : Compiling Task := do
  setLayout .empty
  let rows ← rows visitor select
  let groups ← clause visitor "GROUP BY" (.grouping select) (grouping select)
  let having ← clause visitor "HAVING" (.having select.having) (condition select.having)
  let projected ← clause visitor "projection" (.projection select.items) (projection select.items)
  let distinct ← if select.distinct then some <$> make .distinct else pure none
  make (.sequence "select"
    (rows ++ groups.toList ++ having.toList ++ projected.toList ++ distinct.toList))

/-! ### Changes -/

/-- The layout of the number of rows a change is about. -/
def countLayout : Layout := ⟨[⟨none, "count"⟩]⟩

/-- The positions of the columns an INSERT names, each at most once. -/
def insertColumns (definition : TableDef) (found : List Nat) :
    List Sql.Ident → Result (List Nat)
  | [] => .ok found
  | ident :: rest =>
    match definition.position? ident.key with
    | none => .error (.columnNotFound ident.key)
    | some i =>
      if found.contains i then
        .error (.plan ("Column '" ++ ident.key ++ "' specified more than once"))
      else insertColumns definition (found ++ [i]) rest

/-- The row of values that an INSERT gives for so many columns. -/
def insertRow (columns : Nat) (values : List Expr) : Result Row :=
  if values.length = columns then
    values.mapM fun value => do (← Bound.bindConstant value).eval Row.empty
  else .error (.plan ("INSERT has " ++ toString values.length ++ " values but "
    ++ toString columns ++ " columns"))

/-- The task of an INSERT or UPSERT. Rows are upserted by their first column, for which there has
to be a value. -/
def insert (upserts : Bool) (insert : Sql.Insert) : Compiling Task := do
  setLayout .empty
  let table ← plan (resolveTable insert.table)
  let definition := table.definition
  let columns ←
    if insert.columns.isEmpty then pure (List.range definition.columns.length)
    else ofResult (insertColumns definition [] insert.columns)
  if upserts ∧ !columns.contains 0 then
    let key := (definition.columns.head?.map ColumnDef.name).getD ""
    throw (.plan ("UPSERT requires a value for key column '" ++ key ++ "'"))
  let rows ← ofResult (insert.rows.mapM (insertRow columns.length))
  let values ← make (.values rows)
  let change := if upserts then Change.upsert columns else Change.insert columns
  let mutation ← make (.mutation table change)
  let task ← make (.sequence change.name [values, mutation])
  setLayout countLayout
  return task

/-- A table that is changed, its layout, and the condition on its rows. -/
def tableCondition (name : Sql.ObjectName) (filter : Option Expr) :
    Compiling (ResolvedTable × Layout × Option Bound) := do
  let table ← plan (resolveTable name)
  let layout := Layout.ofTable name.baseKey table.definition
  let condition ← ofResult (filter.mapM (Bound.bind layout))
  return (table, layout, condition)

def assignment (layout : Layout) (assignment : Sql.Assignment) : Result (Nat × Bound) := do
  let column ← layout.resolve none assignment.column.key
  return (column, ← Bound.bind layout assignment.value)

def changeTask (table : ResolvedTable) (change : Change) : Compiling Task := do
  let mutation ← make (.mutation table change)
  let task ← make (.sequence change.name [mutation])
  setLayout countLayout
  return task

def update (update : Sql.Update) : Compiling Task := do
  setLayout .empty
  let (table, layout, condition) ← tableCondition update.table update.condition
  let assignments ← ofResult (update.assignments.mapM (assignment layout))
  changeTask table (.update assignments condition)

def delete (delete : Sql.Delete) : Compiling Task := do
  setLayout .empty
  let (table, _, condition) ← tableCondition delete.table delete.condition
  changeTask table (.delete condition)

/-! ### Statements -/

/-- The task of a statement that no visitor answered. -/
def statement (visitor : Option Visitor) : Statement → Compiling Task
  | .select query => select visitor query
  | .insert rows => insert false rows
  | .upsert rows => insert true rows
  | .update change => update change
  | .delete change => delete change
  | other => throw (.notImplemented other.kind)

/-- Visits a statement: the visitor is asked first. -/
def visit (visitor : Option Visitor) (query : Statement) : Compiling Visit := do
  match ← consult visitor (.statement query) with
  | some visit => ofResult (visit.check query.kind)
  | none => return .done (some (← statement visitor query))

def parse (raw : String) : Result Statement :=
  match Sql.Script.parse raw with
  | .error error => .error (.parse error)
  | .ok [found] => .ok found
  | .ok [] => .error (.noStatement raw)
  | .ok found => .error (.multipleStatements found.length)

/-- Compiles the text of the context into a task that can be run. -/
def compile (visitor : Option Visitor) : Compiling Task := do
  let raw := (← read).raw
  let query ← ofResult (parse raw)
  modify fun compilation => { compilation with statement := some query }
  match (← visit visitor query).task with
  | none => throw (.noTaskFound raw)
  | some task => ofResult task.runnable

end Compiling
end SqlPipeline
