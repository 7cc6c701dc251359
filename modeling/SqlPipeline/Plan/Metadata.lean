import SqlPipeline.Plan.Source
import SqlPipeline.Plan.Visitor

/-!
# Metadata

A visitor that answers questions about tables and settings, and changes those settings that can be
changed while a job exists. It leaves all other statements alone.
-/

namespace SqlPipeline.Metadata

open Sql (ObjectName Show SetVariable)

def answer (name : String) (rows : List Row) : Planning Visit := do
  let values ← Planning.make (.values rows)
  return .done (some (← Planning.make (.sequence name [values])))

def columnRows (table : ObjectName) : Planning (List Row) := do
  let found ← resolveTable table
  return found.definition.columns.map fun column =>
    [.utf8 column.name, .utf8 column.datatype.text]

/-- The value of a setting. Recovery may have been disabled since the job was made. -/
def settingText (name : String) : Planning String := do
  if name = Setting.disableRecover.name then
    return if (← get).signals.recoveryDisabled then "true" else "false"
  else Planning.ofResult ((← read).config.getByName name)

def showing : Show → Planning Visit
  | .tables => do
    match (← read).schema with
    | none => throw .noSchemaSelected
    | some schema =>
      answer "show_tables" (schema.tables.map fun (_, table) => [.utf8 table.definition.name])
  | .columns table => do answer "show_columns" (← columnRows table)
  | .variable name => do answer "show_variable" [[.utf8 (← settingText name.key)]]

def describe (table : ObjectName) : Planning Visit := do
  answer "describe" (← columnRows table)

/-- Changes a setting. The value is checked before it is asked whether the setting can be
changed. -/
def set (change : SetVariable) : Planning Visit := do
  let name := Text.join "." (change.name.parts.map Sql.Ident.key)
  let bound ← Planning.ofResult (Bound.bindConstant change.value)
  let value ← Planning.ofResult (bound.eval Row.empty)
  let config ← Planning.ofResult ((← read).config.setByName name value.text)
  if name = Setting.disableRecover.name then
    modify fun effects =>
      { effects with
        signals := { effects.signals with recoveryDisabled := config.disableRecover } }
    answer "set" []
  else throw (.plan ("Setting '" ++ name ++ "' can only be set before the job is created"))

/-- Answers SHOW, DESCRIBE and SET. -/
def visitor : Visitor := fun _ call =>
  match call with
  | .statement (.showing what) => showing what
  | .statement (.describe table) => describe table
  | .statement (.set change) => set change
  | _ => return .deferred

end SqlPipeline.Metadata
