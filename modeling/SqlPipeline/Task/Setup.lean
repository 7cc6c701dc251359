import SqlPipeline.Error.List
import SqlPipeline.Schema.Basic
import SqlPipeline.Task.Basic

/-!
# Setting up and closing tasks

Before it runs, a tree of tasks is wired from the root down: each task of a sequence takes the
output of the one before, and a join those of its two sides. Then each task is prepared, which
reads the tables and checks those that are written. Closing gives up all connections; every task
is closed, and the errors are reported together. A step that fails leaves behind what was done
before it.
-/

namespace SqlPipeline

namespace Ends

/-- Gives up the connections of a task, the first time it is closed. -/
def close (ends : Ends) : Ends :=
  if ends.closed then ends else { ends with input := none, out := ends.out.close, closed := true }

end Ends

namespace Leaf

def noInput (name : String) : Error :=
  .runtime ("Task '" ++ name ++ "' has no input")

/-- Connects an input. Gives where the receiving end went. -/
def connect (inlet : Inlet) (leaf : Leaf) : Result Receiver × Leaf :=
  match leaf.work with
  | .source _ _ | .values _ =>
    (.error (.plan ("Task '" ++ leaf.name ++ "' does not accept input")), leaf)
  | .custom _ => (.ok .dropped, leaf)
  | _ =>
    if leaf.ends.input.isSome then
      (.error (.internal ("Task '" ++ leaf.name ++ "' already has an input")), leaf)
    else (.ok .wired, { leaf with ends := { leaf.ends with input := some inlet } })

def tableOf (schema : Schema) (key : String) : Result Table :=
  match schema.get? key with
  | some table => .ok table
  | none => .error (.tableNotFound key)

/-- Prepares a task. It is `fed` if it gets the output of another task as its input. -/
def setup (schema : Schema) (fed : Bool) (leaf : Leaf) : Result Unit × Leaf :=
  if leaf.work.readsInput ∧ leaf.ends.input.isNone ∧ !fed then (.error (noInput leaf.name), leaf)
  else match leaf.work with
    | .source key _ =>
      match tableOf schema key >>= Table.scan with
      | .ok rows => (.ok (), { leaf with work := .source key (some rows) })
      | .error error => (.error error, leaf)
    | .mutation key change =>
      ((do
        let table ← tableOf schema key
        Change.checkWritable table
        change.checkColumns table), leaf)
    | _ => (.ok (), leaf)

def close (leaf : Leaf) : Option Error × Leaf :=
  let closed := { leaf with ends := leaf.ends.close }
  match leaf.work with
  | .source key _ => (none, { closed with work := .source key none })
  | .custom custom => (custom.closing, closed)
  | _ => (none, closed)

end Leaf

namespace Task

/-! ### Wiring -/

mutual

/-- Connects an input to a task, or to the first task of a sequence. -/
def connect (inlet : Inlet) : Task → Result Receiver × Task
  | leaf own =>
    let (result, own) := own.connect inlet
    (result, leaf own)
  | join kind on rightWidth ends wired left right =>
    (.error (.plan ("Task '" ++ joinName kind ++ "' does not accept input")),
      join kind on rightWidth ends wired left right)
  | sequence name out children =>
    match connectFirst inlet children with
    | some (result, children) => (result, sequence name out children)
    | none =>
      (.error (.plan ("Task '" ++ name ++ "' has no children to receive input")),
        sequence name out children)
termination_by structural task => task

/-- Connects an input to the first of several tasks, if there is one. -/
def connectFirst (inlet : Inlet) : List Task → Option (Result Receiver × List Task)
  | [] => none
  | task :: rest =>
    let (result, task) := task.connect inlet
    some (result, task :: rest)
termination_by structural tasks => tasks

end

def outputTaken (task : Task) : Error :=
  .internal ("Output of '" ++ task.name ++ "' already taken")

/-- Wires the output of a task to the next, and on from there. The output of a task whose
consumer refuses it is lost. -/
def wireAfter (task : Task) : List Task → Result Unit × List Task
  | [] => (.ok (), [task])
  | next :: rest =>
    if task.outlet.isTaken then (.error task.outputTaken, task :: next :: rest)
    else match next.connect .previous with
      | (.error error, next) =>
        (.error error, task.mapOutlet (.moveTo .dropped) :: next :: rest)
      | (.ok receiver, next) =>
        let (result, wired) := wireAfter next rest
        (result, task.mapOutlet (.moveTo receiver) :: wired)

def wire : List Task → Result Unit × List Task
  | [] => (.ok (), [])
  | task :: rest => wireAfter task rest

/-! ### Setting up -/

mutual

/-- Wires and prepares a task and all tasks below it. It is `fed` if it gets the output of another
task as its input. Wiring a sequence and preparing its tasks do not interfere, but nothing is
prepared that cannot be wired. -/
def setupFed (schema : Schema) (fed : Bool) : Task → Result Unit × Task
  | leaf own =>
    let (result, own) := own.setup schema fed
    (result, leaf own)
  | join kind on rightWidth ends wired left right =>
    if left.outlet.isTaken then
      (.error left.outputTaken, join kind on rightWidth ends wired left right)
    else if right.outlet.isTaken then
      (.error right.outputTaken,
        join kind on rightWidth ends wired (left.mapOutlet (.moveTo .dropped)) right)
    else
      let (result, left, right) : Result Unit × Task × Task :=
        match setupFed schema false left with
        | (.error error, left) => (.error error, left, right)
        | (.ok (), left) =>
          let (result, right) := setupFed schema false right
          (result, left, right)
      (result, join kind on rightWidth ends true (left.mapOutlet (.moveTo .wired))
        (right.mapOutlet (.moveTo .wired)))
  | sequence name out children =>
    match wire children with
    | (.error error, wired) => (.error error, sequence name out wired)
    | (.ok (), _) =>
      let (result, prepared) := setupAll schema fed children
      (result, sequence name out (wire prepared).2)
termination_by structural task => task

/-- Prepares the tasks of a sequence, up to the first that fails. All but the first are fed. -/
def setupAll (schema : Schema) (fed : Bool) : List Task → Result Unit × List Task
  | [] => (.ok (), [])
  | task :: rest =>
    match setupFed schema fed task with
    | (.error error, task) => (.error error, task :: rest)
    | (.ok (), task) =>
      let (result, rest) := setupAll schema true rest
      (result, task :: rest)
termination_by structural tasks => tasks

end

def setup (schema : Schema) (task : Task) : Result Unit × Task :=
  setupFed schema false task

/-! ### Closing -/

mutual

/-- Closes a task and all tasks below it, from left to right. Gives the errors of this step: those
of the children of a task are reported as one. -/
def close : Task → Result Unit × Task
  | leaf own =>
    let (error, own) := own.close
    ((ErrorList.empty.append error).toResult, leaf own)
  | join kind on rightWidth ends _ left right =>
    let (first, left) := left.close
    let (second, right) := right.close
    let errors := (ErrorList.empty.appendResult first).2
    ((errors.appendResult second).2.toResult,
      join kind on rightWidth ends.close false left right)
  | sequence name out children =>
    let (errors, children) := closeAll .empty children
    (errors.toResult, sequence name out.close children)
termination_by structural task => task

def closeAll (errors : ErrorList) : List Task → ErrorList × List Task
  | [] => (errors, [])
  | task :: rest =>
    let (result, task) := task.close
    let (errors, rest) := closeAll (errors.appendResult result).2 rest
    (errors, task :: rest)
termination_by structural tasks => tasks

end

end Task
end SqlPipeline
