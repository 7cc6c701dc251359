import SqlPipeline.Task.Change
import SqlPipeline.Task.Handoff
import SqlPipeline.Task.Stage

/-!
# Tasks

A job is a tree of tasks. Tasks without children make, turn or store rows; a join reads two tasks,
and a sequence feeds each of its tasks with the rows of the one before. Every task hands its rows
to one consumer; a sequence hands on those of its last task.
-/

namespace SqlPipeline

/-- Where the input of a task comes from. -/
inductive Inlet where
  /-- Rows that are there already. -/
  | supplied (rows : List Row)
  /-- The output of the task before it. -/
  | previous
deriving DecidableEq, Repr, Inhabited

/-- The two ends of a task, where its rows come from and where they go, and what happened to
it. -/
structure Ends where
  input : Option Inlet
  out : Handoff
  /-- Whether the task was started. -/
  ran : Bool
  closed : Bool
deriving DecidableEq, Repr, Inhabited

/-- The ends of a task that is connected to nothing. -/
def Ends.new : Ends := ⟨none, .new, false, false⟩

/-- A task of a back end, known by what becomes of it. -/
structure Custom where
  /-- Whether the task can be run at all. -/
  runnable : Bool
  /-- Running the task panics, with a message if the panic has a text. -/
  panic : Option (Option String)
  /-- The error with which closing the task fails. -/
  closing : Option Error
deriving DecidableEq, Repr, Inhabited

/-- What a task without children does. A table is given by its key. -/
inductive Work where
  /-- Sends the rows of a table, which are read when the task is set up. -/
  | source (table : String) (scanned : Option (List Row))
  | values (rows : List Row)
  | filter (predicate : Bound)
  | projection (exprs : List Bound)
  | groupBy (keys : List Bound) (aggregates : List Aggregate)
  | distinct
  /-- Changes a table and sends the number of rows the change is about. -/
  | mutation (table : String) (change : Change)
  | custom (custom : Custom)
deriving Repr, Inhabited

def Work.readsInput : Work → Bool
  | .filter _ | .projection _ | .groupBy _ _ | .distinct => true
  | .mutation _ change => change.readsRows
  | .source _ _ | .values _ | .custom _ => false

structure Leaf where
  name : String
  ends : Ends
  work : Work
deriving Repr, Inhabited

inductive Task where
  | leaf (leaf : Leaf)
  /-- A join. It is wired once the outputs of both sides are its own. -/
  | join (kind : Sql.JoinKind) (on : Bound) (rightWidth : Nat) (ends : Ends) (wired : Bool)
    (left right : Task)
  /-- Tasks that feed each other. The handoff is used if there are none. -/
  | sequence (name : String) (out : Handoff) (children : List Task)
deriving Repr, Inhabited

namespace Task

/-! ### Making tasks -/

def ofWork (name : String) (work : Work) : Task :=
  leaf ⟨name, .new, work⟩

/-- Reads the table of the given key, under the name a query gives it. -/
def source (binding table : String) : Task :=
  ofWork ("source(" ++ binding ++ ")") (.source table none)

def values (rows : List Row) : Task :=
  ofWork "values" (.values rows)

def filter (predicate : Bound) : Task :=
  ofWork "filter" (.filter predicate)

def projection (exprs : List Bound) : Task :=
  ofWork "projection" (.projection exprs)

def groupBy (keys : List Bound) (aggregates : List Aggregate) : Task :=
  ofWork "group_by" (.groupBy keys aggregates)

def distinct : Task :=
  ofWork "distinct" .distinct

def mutation (table name : String) (change : Change) : Task :=
  ofWork (change.name ++ "(" ++ name ++ ")") (.mutation table change)

def custom (name : String) (custom : Custom) : Task :=
  ofWork name (.custom custom)

def joining (kind : Sql.JoinKind) (on : Bound) (rightWidth : Nat) (left right : Task) : Task :=
  join kind on rightWidth .new false left right

def inSequence (name : String) (children : List Task) : Task :=
  sequence name .new children

/-! ### Looking at tasks -/

def joinName : Sql.JoinKind → String
  | .inner => "join(inner)"
  | .left => "join(left)"

def name : Task → String
  | leaf own => own.name
  | join kind _ _ _ _ _ _ => joinName kind
  | sequence name _ _ => name

def children : Task → List Task
  | leaf _ => []
  | join _ _ _ _ _ left right => [left, right]
  | sequence _ _ children => children

mutual

/-- The name of a task, and in brackets those of the tasks below it. -/
def outline : Task → String
  | leaf own => own.name
  | join kind _ _ _ _ left right =>
    joinName kind ++ "[" ++ left.outline ++ ", " ++ right.outline ++ "]"
  | sequence name _ [] => name
  | sequence name _ children => name ++ "[" ++ Text.join ", " (outlines children) ++ "]"
termination_by structural task => task

def outlines : List Task → List String
  | [] => []
  | task :: rest => task.outline :: outlines rest
termination_by structural tasks => tasks

end

/-- The task itself, unless it cannot be run. -/
def runnable (task : Task) : Result Task :=
  match task with
  | leaf ⟨name, _, .custom work⟩ =>
    if work.runnable then .ok task else .error (.notRunnable name)
  | _ => .ok task

/-! ### The output of a task -/

mutual

/-- The handoff through which a task hands out its rows. -/
def outlet : Task → Handoff
  | leaf own => own.ends.out
  | join _ _ _ ends _ _ _ => ends.out
  | sequence _ out children => outletAfter out children
termination_by structural task => task

/-- The outlet of the last of several tasks, or the given handoff. -/
def outletAfter (own : Handoff) : List Task → Handoff
  | [] => own
  | task :: rest => outletAfter task.outlet rest
termination_by structural tasks => tasks

end

mutual

/-- Changes the handoff through which a task hands out its rows. -/
def mapOutlet (f : Handoff → Handoff) : Task → Task
  | leaf ⟨name, ends, work⟩ => leaf ⟨name, { ends with out := f ends.out }, work⟩
  | join kind on rightWidth ends wired left right =>
    join kind on rightWidth { ends with out := f ends.out } wired left right
  | sequence name out [] => sequence name (f out) []
  | sequence name out children => sequence name out (mapLastOutlet f children)
termination_by structural task => task

def mapLastOutlet (f : Handoff → Handoff) : List Task → List Task
  | [] => []
  | [task] => [task.mapOutlet f]
  | task :: rest => task :: mapLastOutlet f rest
termination_by structural tasks => tasks

end

/-- The handoff from which the rows of a job are taken: that of the last child of its root. -/
def drain? (task : Task) : Option Handoff :=
  task.children.getLast?.map outlet

def mapDrain (f : Handoff → Handoff) : Task → Task
  | leaf own => leaf own
  | join kind on rightWidth ends wired left right =>
    join kind on rightWidth ends wired left (right.mapOutlet f)
  | sequence name out children => sequence name out (mapLastOutlet f children)

end Task
end SqlPipeline
