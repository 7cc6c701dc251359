import SqlPipeline.Config
import SqlPipeline.Layout
import SqlPipeline.Task.Run

/-!
# Planning

A statement is planned in a context that does not change: its text, the schema, the settings and
the planner, which makes the tasks that planning asks for. What planning does change is kept
through errors: the signals to the job, and the requests made of the planner.
-/

namespace SqlPipeline

/-- A table that a name was found to stand for. -/
structure ResolvedTable where
  key : String
  definition : TableDef
deriving DecidableEq, Repr, Inhabited

inductive Request where
  | sequence (name : String) (children : List Task)
  | source (binding : String) (table : ResolvedTable)
  | values (rows : List Row)
  | filter (predicate : Bound)
  | projection (exprs : List Bound)
  | groupBy (keys : List Bound) (aggregates : List Aggregate)
  | distinct
  | join (kind : Sql.JoinKind) (left right : Task) (on : Bound) (rightWidth : Nat)
  | mutation (table : ResolvedTable) (change : Change)
deriving Repr, Inhabited

/-- Makes the tasks that are asked for. -/
abbrev Planner := Request → Result Task

namespace Planner

/-- The planner whose tasks work in memory. Only tasks that can be run are put together. -/
def inMemory : Planner
  | .sequence name children => do return Task.inSequence name (← children.mapM Task.runnable)
  | .source binding table => .ok (Task.source binding table.key)
  | .values rows => .ok (Task.values rows)
  | .filter predicate => .ok (Task.filter predicate)
  | .projection exprs => .ok (Task.projection exprs)
  | .groupBy keys aggregates => .ok (Task.groupBy keys aggregates)
  | .distinct => .ok Task.distinct
  | .join kind left right on rightWidth => do
    let left ← left.runnable
    return Task.joining kind on rightWidth left (← right.runnable)
  | .mutation table change => .ok (Task.mutation table.key table.definition.name change)

end Planner

structure Context where
  /-- The text of the statement. -/
  raw : String
  schema : Option Schema
  config : Config
  planner : Planner

/-- The signals to a job that was not told anything yet. -/
def Signals.ofConfig (config : Config) : Signals :=
  ⟨config.disableRecover, false⟩

/-- What planning changes besides making tasks. -/
structure Effects where
  signals : Signals
  /-- The requests made so far. -/
  requests : List Request
deriving Repr, Inhabited

abbrev Planning := ReaderT Context (ExceptT Error (StateM Effects))

namespace Planning

variable {α : Type}

/-- Fails or goes on with a value. -/
def ofResult (result : Result α) : Planning α :=
  match result with
  | .ok value => return value
  | .error error => throw error

def make (request : Request) : Planning Task := do
  modify fun effects => { effects with requests := effects.requests ++ [request] }
  ofResult ((← read).planner request)

/-- The result of a step that may fail. -/
def attempt (step : Planning α) : Planning (Result α) :=
  tryCatch (do return .ok (← step)) fun error => return .error error

end Planning
end SqlPipeline
