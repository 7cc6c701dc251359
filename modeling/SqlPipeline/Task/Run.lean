import SqlPipeline.Task.Setup

/-!
# Running tasks

A run starts the tasks from left to right, the sides of a join before the join. A task that cannot
start refuses, and no task after it is started; those before it do their work all the same.

Rows flow from task to task. A task whose consumer is gone stops when it has a row to send; one
that fails ends the input of the task after it. So the flow out of a task is all rows it sends if
they are all taken, and what it fails with depends on how many are.
-/

namespace SqlPipeline

structure Signals where
  /-- Whether panics of tasks are passed on. -/
  recoveryDisabled : Bool
  /-- Whether tasks have to stop. -/
  shutdown : Bool
deriving DecidableEq, Repr, Inhabited

/-- How a run that did not finish ended. -/
inductive Failure where
  | error (error : Error)
  /-- A panic is passed on, with its message if it has a text. -/
  | panic (message : Option String)
deriving DecidableEq, Repr, Inhabited

/-- What comes out of a task. -/
structure Flow where
  /-- The rows that are sent if all are taken. -/
  rows : List Row
  /-- The first failure, from left to right, of this task and all that feed it if so many rows are
  taken before the consumer is gone. As many as there are means that it stays. -/
  failure : (taken : Nat) → Option Failure

namespace Flow

def empty : Flow := ⟨[], fun _ => none⟩

def ofRows (rows : List Row) : Flow := ⟨rows, fun _ => none⟩

/-- The failure if all rows are taken. -/
def failureAtEnd (flow : Flow) : Option Failure :=
  flow.failure flow.rows.length

/-- The failure if no row is taken. -/
def failureAtOnce (flow : Flow) : Option Failure :=
  flow.failure 0

/-- How a run ends whose rows are all taken. -/
def outcome (flow : Flow) : Except Failure Unit :=
  match flow.failureAtEnd with
  | some failure => .error failure
  | none => .ok ()

/-- How a run ends if its reader goes away with so many rows. -/
def outcomeAfter (flow : Flow) (taken : Nat) : Except Failure Unit :=
  match flow.failure taken with
  | some failure => .error failure
  | none => .ok ()

/-- The flow out of a task whose consumer is gone from the start. -/
def cut (flow : Flow) : Flow :=
  ⟨[], fun _ => flow.failureAtOnce⟩

/-- The flow out of a task that reads all of a flow and then sends rows or fails. -/
def afterAll (input : Flow) : Result (List Row) → Flow
  | .ok rows => ⟨rows, fun _ => input.failureAtEnd⟩
  | .error error => ⟨[], fun _ => input.failureAtEnd <|> some (.error error)⟩

/-- The flow out of a task that is shut down before it reads anything. -/
def interrupted (input : Flow) : Flow :=
  ⟨[], fun _ => input.failureAtOnce <|> some (.error .shuttingDown)⟩

end Flow

def Stage.flow {σ : Type} (stage : Stage σ) (input : Flow) : Flow :=
  let outs := (stage.feed stage.start input.rows).1
  let (rows, result) := stage.run input.rows
  { rows
    failure := fun taken =>
      match Stage.readsFor taken outs, result with
      | some reads, _ => input.failure reads
      | none, .ok () => input.failureAtEnd
      | none, .error error => input.failure outs.length <|> some (.error error) }

namespace Ends

/-- Starts a task: its input and the sending end of its handoff are taken. -/
def start (name : String) (readsInput : Bool) (ends : Ends) : Result Unit × Ends :=
  if readsInput ∧ ends.input.isNone then (.error (Leaf.noInput name), ends)
  else
    let taken := if readsInput then { ends with input := none } else ends
    if taken.ran then (.error (.internal ("Task '" ++ name ++ "' already ran")), taken)
    else if taken.out.isOpen then (.ok (), { taken with ran := true, out := taken.out.close })
    else (.error (.internal ("Task '" ++ name ++ "' was closed before running")),
      { taken with ran := true })

/-- The flow that leaves a task, and its ends after that. Nothing leaves if the consumer is
gone. -/
def send (ends : Ends) (flow : Flow) : Flow × Ends :=
  if ends.out.receiver = .dropped then (flow.cut, ends)
  else (flow, { ends with out := ends.out.deliver flow.rows })

end Ends

def notSetUp (name : String) : Error :=
  .internal ("Task '" ++ name ++ "' was not set up")

namespace Work

/-- The rows a task sends that reads no input. -/
def sending (signals : Signals) (input : Flow) (rows : List Row) : Flow :=
  if signals.shutdown ∧ !rows.isEmpty then
    ⟨[], fun _ => input.failureAtEnd <|> some (.error .shuttingDown)⟩
  else ⟨rows, fun _ => input.failureAtEnd⟩

/-- The rows a stage sends. -/
def turning {σ : Type} (signals : Signals) (input : Flow) (stage : Stage σ) : Flow :=
  if signals.shutdown then input.interrupted else stage.flow input

/-- The table of a key, if it can be written. -/
def writableTable (schema : Schema) (key : String) : Result Table := do
  let table ← Leaf.tableOf schema key
  Change.checkWritable table
  return table

/-- Makes a change to the table of a key: the number of rows it is about, or why it failed, and the
schema it leaves behind. -/
def applyChange (key : String) (change : Change) (rows : List Row) (schema : Schema) :
    Result Nat × Schema :=
  match writableTable schema key with
  | .error error => (.error error, schema)
  | .ok table =>
    let (result, changed) := change.apply rows table
    (result, schema.put key changed)

/-- The flow out of a task that changes a table, and the schema after it. A change that reads rows
is made when all have come. -/
def changing (signals : Signals) (input : Flow) (key : String) (change : Change)
    (schema : Schema) : Flow × Schema :=
  if change.readsRows ∧ signals.shutdown then (input.interrupted, schema)
  else match applyChange key change (if change.readsRows then input.rows else []) schema with
    | (.error error, schema) => (input.afterAll (.error error), schema)
    | (.ok count, schema) =>
      if signals.shutdown then (input.afterAll (.error .shuttingDown), schema)
      else (input.afterAll (.ok [[Value.count count]]), schema)

def customFailure (signals : Signals) (name : String) (custom : Custom) : Option Failure :=
  custom.panic.map fun message =>
    if signals.recoveryDisabled then .panic message
    else .error (.taskPanic name (message.getD "UNKNOWN"))

/-- The flow out of a task that is fed by another, and the schema after it. -/
def flow (signals : Signals) (name : String) (input : Flow) (schema : Schema) :
    Work → Flow × Schema
  | source _ scanned => (sending signals input (scanned.getD []), schema)
  | values rows => (sending signals input rows, schema)
  | filter predicate => (turning signals input (.filter predicate), schema)
  | projection exprs => (turning signals input (.projection exprs), schema)
  | groupBy keys aggregates => (turning signals input (.groupBy keys aggregates), schema)
  | distinct => (turning signals input .distinct, schema)
  | mutation key change => changing signals input key change schema
  | custom work =>
    (⟨[], fun _ => input.failureAtEnd <|> customFailure signals name work⟩, schema)

end Work

namespace Leaf

/-- Starts a task that is fed by the given flow if its input is the task before. -/
def launch (signals : Signals) (input : Flow) (leaf : Leaf) (schema : Schema) :
    Result Flow × Leaf × Schema :=
  match leaf.work with
  | .source _ none => (.error (notSetUp leaf.name), leaf, schema)
  | work =>
    let spent := match work with
      | .source key _ => .source key none
      | other => other
    match leaf.ends.start leaf.name work.readsInput with
    | (.error error, ends) => (.error error, ⟨leaf.name, ends, spent⟩, schema)
    | (.ok (), ends) =>
      let input := match leaf.ends.input with
        | some (.supplied rows) => Flow.ofRows rows
        | _ => input
      let (flow, schema) := work.flow signals leaf.name input schema
      let (flow, ends) := ends.send flow
      (.ok flow, ⟨leaf.name, ends, spent⟩, schema)

end Leaf

namespace Task

/-- The flow out of a join. The right side is read first, and the left side row by row. -/
def joinFlow (signals : Signals) (kind : Sql.JoinKind) (on : Bound) (rightWidth : Nat)
    (input left right : Flow) : Flow :=
  let failures (reads : Flow → Option Failure) := reads left <|> reads right
  if signals.shutdown then
    ⟨[], fun _ => input.failureAtEnd <|> failures Flow.failureAtOnce
      <|> some (.error .shuttingDown)⟩
  else
    let merged := (Stage.join kind on rightWidth right.rows).flow
      { left with failure := fun reads => left.failure reads <|> right.failureAtEnd }
    { merged with failure := fun taken => input.failureAtEnd <|> merged.failure taken }

mutual

/-- Starts a task and all tasks below it. Gives the flow out of it, or why it was refused. -/
def launch (signals : Signals) (input : Flow) (task : Task) (schema : Schema) :
    Result Flow × Task × Schema :=
  match task with
  | leaf own =>
    let (result, own, schema) := own.launch signals input schema
    (result, leaf own, schema)
  | join kind on rightWidth ends wired left right =>
    if !wired then
      (.error (notSetUp (joinName kind)), join kind on rightWidth ends wired left right, schema)
    else match ends.start (joinName kind) false with
      | (.error error, ends) =>
        (.error error, join kind on rightWidth ends false left right, schema)
      | (.ok (), ends) =>
        match left.launch signals .empty schema with
        | (.error error, left, schema) =>
          (.error error, join kind on rightWidth ends false left right, schema)
        | (.ok leftFlow, left, schema) =>
          match right.launch signals .empty schema with
          | (.error error, right, schema) =>
            (.error error, join kind on rightWidth ends false left right, schema)
          | (.ok rightFlow, right, schema) =>
            let (flow, ends) :=
              ends.send (joinFlow signals kind on rightWidth input leftFlow rightFlow)
            (.ok flow, join kind on rightWidth ends false left right, schema)
  | sequence name out children =>
    let (result, launched, schema) := launchAll signals input children schema
    let result := if children.isEmpty then .ok input.cut else result
    (result, sequence name out.close launched, schema)
termination_by structural task

/-- Starts tasks that feed each other, up to the first that refuses. -/
def launchAll (signals : Signals) (input : Flow) (tasks : List Task) (schema : Schema) :
    Result Flow × List Task × Schema :=
  match tasks with
  | [] => (.ok input, [], schema)
  | task :: rest =>
    match task.launch signals input schema with
    | (.error error, task, schema) => (.error error, task :: rest, schema)
    | (.ok flow, task, schema) =>
      let (result, rest, schema) := launchAll signals flow rest schema
      (result, task :: rest, schema)
termination_by structural tasks

end

end Task
end SqlPipeline
