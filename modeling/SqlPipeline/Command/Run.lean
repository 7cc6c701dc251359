import SqlPipeline.Command.Arguments
import SqlPipeline.Job.Execution
import SqlPipeline.Plan.Metadata
import SqlPipeline.Schema.Catalog

/-!
# Running a command

A command reads its catalog, then executes the statements of its files and queries one by one. The
rows of each are written with tabs between the values; the first error ends the command.
-/

namespace SqlPipeline.Command

structure Output where
  stdout : String
  exit : Nat
deriving DecidableEq, Repr, Inhabited

/-- The text of a file, or why it cannot be read. -/
abbrev FileText := Except String String

def configOf (invocation : Invocation) : Result Config := do
  let config ←
    match invocation.channelBuffer with
    | some n => Config.default.set .channelBuffer (toString n)
    | none => pure .default
  return { config with disableRecover := invocation.disableRecover }

def failureMessage : Failure → String
  | .error error => error.message
  | .panic message => message.getD ""

/-- Executes a statement: the lines of its rows, and the tables after it. -/
def executeStatement (config : Config) (schema : Option Schema) (raw : String) :
    Except String (String × Option Schema) :=
  let spec : JobSpec := ⟨raw, config, Planner.inMemory, some Metadata.visitor⟩
  let (execution, world) := (Execution.run spec).run (.start schema config)
  match execution.failure with
  | some failure => .error (failureMessage failure)
  | none =>
    .ok (String.join ((execution.rows.getD []).map fun row => Row.text row ++ "\n"), world.schema)

/-- Executes statements, adding to what was written. Ends with the first error. -/
def executeAll (config : Config) (schema : Option Schema) (written : String) :
    List String → String × Except String (Option Schema)
  | [] => (written, .ok schema)
  | raw :: rest =>
    match executeStatement config schema raw with
    | .error message => (written, .error message)
    | .ok (lines, schema) => executeAll config schema (written ++ lines) rest

/-- Executes scripts, adding to what was written. A script is parsed when those before it are
done. -/
def executeScripts (config : Config) (schema : Option Schema) (written : String) :
    List String → String × Except String Unit
  | [] => (written, .ok ())
  | script :: rest =>
    match Sql.Script.parseWithSource script with
    | .error error => (written, .error error.message)
    | .ok found =>
      match executeAll config schema written (found.map (·.2)) with
      | (written, .error message) => (written, .error message)
      | (written, .ok schema) => executeScripts config schema written rest

/-- The schema a command works on, and its scripts. -/
def prepare (invocation : Invocation) (catalog : Option FileText) (files : List FileText) :
    Except String (Config × Option Schema × List String) := do
  let config ← (configOf invocation).mapError Error.message
  let schema ←
    match catalog with
    | none => pure none
    | some file =>
      let found ← (Catalog.ofText (← file)).mapError Error.message
      let schema ← (found.build (invocation.schema.getD "main")).mapError Error.message
      pure (some schema)
  let scripts := (← files.mapM id) ++ invocation.queries
  if scripts.isEmpty then throw "Nothing to execute, provide queries or files"
  return (config, schema, scripts)

def failed (written message : String) : Output :=
  ⟨written ++ "ERROR: " ++ message ++ "\n", 1⟩

/-- Runs a command whose files have the given texts. -/
def run (invocation : Invocation) (catalog : Option FileText) (files : List FileText) : Output :=
  match prepare invocation catalog files with
  | .error message => failed "" message
  | .ok (config, schema, scripts) =>
    match executeScripts config schema "" scripts with
    | (written, .error message) => failed written message
    | (written, .ok ()) => ⟨written, 0⟩

end SqlPipeline.Command
