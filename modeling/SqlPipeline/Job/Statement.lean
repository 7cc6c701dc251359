import SqlPipeline.Job.Lifecycle
import SqlPipeline.Plan.Compile

/-!
# Jobs for statements

The job of one statement: its root is the task the statement is compiled into, and its world the
tables and what was found out in compiling.
-/

namespace SqlPipeline

/-- What the job of a statement does not change. -/
structure JobSpec where
  /-- The text of the statement. -/
  raw : String
  config : Config
  planner : Planner
  visitor : Option Visitor

/-- What the job of a statement changes besides its tasks. -/
structure World where
  schema : Option Schema
  compilation : Compilation
deriving Repr, Inhabited

namespace World

def start (schema : Option Schema) (config : Config) : World :=
  ⟨schema, .start config⟩

def signals (world : World) : Signals :=
  world.compilation.effects.signals

def setSignals (world : World) (signals : Signals) : World :=
  { world with
    compilation :=
      { world.compilation with effects := { world.compilation.effects with signals } } }

/-- The tables, of which there are none without a schema. -/
def tables (world : World) : Schema :=
  world.schema.getD (.empty "")

def setTables (world : World) (schema : Schema) : World :=
  { world with schema := world.schema.map fun _ => schema }

end World

namespace Task

/-- How a run ends for a reader, after tasks were started under the given signals. -/
def outcomeFor (signals : Signals) (flow : Flow) : Reader → Except Failure Unit
  | .patient => flow.outcome
  | .leaving rows => flow.outcomeAfter rows
  | .stopping rows => do
    flow.outcomeAfter rows
    if rows < flow.rows.length then throw (.error .shuttingDown)
  | .collecting => if signals.shutdown then .error (.error .shuttingDown) else flow.outcome

def run (reader : Reader) (task : Task) : StateM World (Except Failure Unit × Task) := do
  let world ← get
  let (result, task, schema) := task.launch world.signals .empty world.tables
  let stopped := match reader with
    | .stopping _ => true
    | _ => world.signals.shutdown
  set ((world.setTables schema).setSignals { world.signals with shutdown := stopped })
  match result with
  | .error error => return (.error (.error error), task)
  | .ok flow => return (outcomeFor world.signals flow reader, task)

/-- Runs a tree of tasks while all its rows are received. A shutdown ends the receiving at once, and
so the run. -/
def runJoined (task : Task) : StateM World (Joined × Task) := do
  match ← task.run .collecting with
  | (.error (.error .shuttingDown), task) => return (.dropped .shuttingDown, task)
  | (result, task) => return (.ran result (.ok ()), task)

/-- Sets up a tree of tasks, runs it and takes all rows it gives. It is not run if its output has
a consumer, and then there are none. -/
def collect (task : Task) : StateM World (Except Failure (Option (List Row)) × Task) := do
  match task.setup (← get).tables with
  | (.error error, task) => return (.error (.error error), task)
  | (.ok (), task) =>
    if task.outlet.isTaken then return (.ok none, task)
    let (result, task) ← (task.mapOutlet (.moveTo .held)).run .collecting
    let rows := task.outlet.messages.map Message.row
    return (result.map fun _ => some rows, task.mapOutlet Handoff.drop)

end Task

abbrev StatementJob := Job Task

def JobSpec.driving (spec : JobSpec) : Driving World Task where
  compile := do
    let world ← get
    let context : Context := ⟨spec.raw, world.schema, spec.config, spec.planner⟩
    let (result, compilation) :=
      ((Compiling.compile spec.visitor context).run).run world.compilation
    set { world with compilation }
    return result
  setup task := do
    return task.setup (← get).tables
  run := Task.run
  runJoined := Task.runJoined
  close := Task.close
  drain? := Task.drain?
  mapDrain := Task.mapDrain

end SqlPipeline
