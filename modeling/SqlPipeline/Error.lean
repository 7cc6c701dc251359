import SqlPipeline.Sql.Token

/-!
# Errors

Everything that can keep a statement from being answered, with its message and its kind. One error
is about the state of a job, which goes from its making to its closing.
-/

namespace SqlPipeline

inductive JobState where
  | created | compiled | setUp | running | finished | failed | closed
deriving DecidableEq, Repr, Inhabited

def JobState.text : JobState → String
  | .created => "created"
  | .compiled => "compiled"
  | .setUp => "set up"
  | .running => "running"
  | .finished => "finished"
  | .failed => "failed"
  | .closed => "closed"

inductive Error where
  | parse (error : Sql.ParseError)
  | multipleStatements (count : Nat)
  | noStatement (raw : String)
  | noTaskFound (raw : String)
  | notRunnable (task : String)
  | notImplemented (statement : String)
  | noSchemaSelected
  | tableNotFound (table : String)
  | columnNotFound (column : String)
  | ambiguousColumn (column : String)
  /-- The statement cannot be turned into tasks. -/
  | plan (message : String)
  | noRootTask
  | emptyRoot
  | invalidLifecycle (expected actual : JobState)
  | shuttingDown
  | taskPanic (task message : String)
  /-- A task failed on the rows it was given. -/
  | runtime (message : String)
  /-- The messages of several errors, line by line. -/
  | aggregate (message : String)
  | internal (message : String)
deriving DecidableEq, Repr, Inhabited

/-- A coarse classification of errors. -/
inductive ErrorKind where
  | parse | compile | unsupportedStatement | runtime | shutdown | aggregate | internal
deriving DecidableEq, Repr, Inhabited

namespace Error

def message : Error → String
  | parse error => error.message
  | multipleStatements count => "Expected exactly one statement, got " ++ toString count
  | noStatement raw => "No statement for parse: " ++ raw
  | noTaskFound raw => "No task found: " ++ raw
  | notRunnable task => "Expected TaskRunner but was " ++ task
  | notImplemented statement => "Not implemented: " ++ statement
  | noSchemaSelected => "No schema selected"
  | tableNotFound table => "Missing table: " ++ table
  | columnNotFound column => "Missing column: " ++ column
  | ambiguousColumn column => "Ambiguous column reference: " ++ column
  | plan message => message
  | noRootTask => "No task exists for this job"
  | emptyRoot => "Root task has no children to drain"
  | invalidLifecycle expected actual =>
    "Invalid job lifecycle, expected job to be " ++ expected.text ++ ", but it is " ++ actual.text
  | shuttingDown => "Received shutdown signal"
  | taskPanic task message => "Task '" ++ task ++ "' panicked: " ++ message
  | runtime message => message
  | aggregate message => message
  | internal message => "internal error: " ++ message

def kind : Error → ErrorKind
  | parse _ | multipleStatements _ => .parse
  | noTaskFound _ | notRunnable _ | noSchemaSelected | tableNotFound _ | columnNotFound _
  | ambiguousColumn _ | plan _ => .compile
  | notImplemented _ => .unsupportedStatement
  | noRootTask | emptyRoot | invalidLifecycle _ _ | taskPanic _ _ | runtime _ => .runtime
  | shuttingDown => .shutdown
  | aggregate _ => .aggregate
  | noStatement _ | internal _ => .internal

end Error

abbrev Result (α : Type) := Except Error α

end SqlPipeline
