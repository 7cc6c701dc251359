import SqlPipeline.Bound.Basic
import SqlPipeline.Table.Basic

/-!
# Changes

What a statement does to the rows of a table. Inserted rows hold the values for some of the
columns, in any order; an update computes all new values of a row from its old ones.
-/

namespace SqlPipeline

/-- A change to the rows of a table. Columns are given by their positions. -/
inductive Change where
  | insert (columns : List Nat)
  | upsert (columns : List Nat)
  | update (assignments : List (Nat × Bound)) (condition : Option Bound)
  | delete (condition : Option Bound)
deriving Repr, Inhabited

namespace Change

def name : Change → String
  | insert _ => "insert"
  | upsert _ => "upsert"
  | update _ _ => "update"
  | delete _ => "delete"

/-- Whether the change is made of rows that it is given. -/
def readsRows : Change → Bool
  | insert _ | upsert _ => true
  | update _ _ | delete _ => false

def columns : Change → List Nat
  | insert columns | upsert columns => columns
  | update assignments _ => assignments.map (·.1)
  | delete _ => []

/-- The first written column that a table of the given width does not have. -/
def beyond? (change : Change) (width : Nat) : Option Nat :=
  change.columns.find? (width ≤ ·)

def setColumn (row : Row) (column : Nat) (value : Value) : Result Row :=
  if column < row.length then .ok (row.set column value)
  else .error (.runtime ("Column " ++ toString column ++ " out of range"))

def setColumns : List Nat → Row → Row → Result Row
  | column :: columns, value :: values, row => do
    setColumns columns values (← setColumn row column value)
  | _, _, row => .ok row

/-- A row of the full width of a table; columns that are not listed are NULL. -/
def widen (columns : List Nat) (width : Nat) (values : Row) : Result Row :=
  if values.length = columns.length then setColumns columns values (Row.nulls width)
  else .error (.runtime ("Expected " ++ toString columns.length ++ " values, got "
    ++ toString values.length))

/-- Whether a row satisfies a condition; without one every row does. -/
def selects (condition : Option Bound) (row : Row) : Result Bool :=
  match condition with
  | some condition => condition.accepts row
  | none => .ok true

/-- Carries out assignments whose expressions are evaluated on the row `old`. -/
def assign (old : Row) : List (Nat × Bound) → Row → Result Row
  | [], row => .ok row
  | (column, expr) :: rest, row => do
    let value ← expr.eval old
    assign old rest (← setColumn row column value)

/-- The row after assignments, if it satisfies the condition. -/
def rewrite (assignments : List (Nat × Bound)) (condition : Option Bound) (row : Row) :
    Result (Option Row) := do
  if ← selects condition row then return some (← assign row assignments row) else return none

/-- Makes a change to a table: the number of rows it is about, or why it failed, and the table it
leaves behind. -/
def apply (change : Change) (rows : List Row) (table : Table) : Result Nat × Table :=
  let width := table.definition.columns.length
  match change with
  | insert columns =>
    match rows.mapM (widen columns width) with
    | .error error => (.error error, table)
    | .ok full => table.insert full
  | upsert columns =>
    match rows.mapM (widen columns width) with
    | .error error => (.error error, table)
    | .ok full => table.upsert full
  | update assignments condition => table.update (.each (rewrite assignments condition))
  | delete condition => table.delete (.each (selects condition))

def checkWritable (table : Table) : Result Unit :=
  if table.isWritable then .ok ()
  else .error (.runtime ("Table '" ++ table.definition.name ++ "' is read only"))

/-- Refuses a change to columns that a table does not have. -/
def checkColumns (change : Change) (table : Table) : Result Unit :=
  match change.beyond? table.definition.columns.length with
  | some column => .error (.runtime ("Column " ++ toString column ++ " out of range for table '"
      ++ table.definition.name ++ "'"))
  | none => .ok ()

end Change
end SqlPipeline
