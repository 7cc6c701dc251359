import SqlPipeline.Table.Definition

/-!
# Tables

A table holds its rows in order. A change gives the number of rows it was about, or why it failed,
and the table it leaves behind.
-/

namespace SqlPipeline

/-- What can be done with the rows of a table. -/
inductive Access where
  | readWrite
  | readOnly
  /-- Reading the rows fails, and there is no writing them. -/
  | unreadable (reason : Error)
deriving DecidableEq, Repr, Inhabited

/-- A question that is put to rows one after the other. What it answers may depend on the rows
before, which it remembers in a state. -/
structure Asking (α : Type) where
  State : Type
  start : State
  ask : Row → StateT State Result α

/-- Asks of each row on its own. -/
def Asking.each {α : Type} (ask : Row → Result α) : Asking α :=
  ⟨Unit, (), fun row => StateT.lift (ask row)⟩

structure Table where
  definition : TableDef
  access : Access
  rows : List Row
deriving DecidableEq, Repr, Inhabited

namespace Table

def empty (definition : TableDef) : Table :=
  ⟨definition, .readWrite, []⟩

def isWritable (table : Table) : Bool :=
  table.access = .readWrite

def scan (table : Table) : Result (List Row) :=
  match table.access with
  | .unreadable reason => .error reason
  | _ => .ok table.rows

def insert (table : Table) (rows : List Row) : Result Nat × Table :=
  match rows.mapM table.definition.coerce with
  | .error error => (.error error, table)
  | .ok added => (.ok added.length, { table with rows := table.rows ++ added })

def ofRows (definition : TableDef) (rows : List Row) : Result Table :=
  match (empty definition).insert rows with
  | (.error error, _) => .error error
  | (.ok _, table) => .ok table

/-- Puts a row in the place of the first one with the same first value, or at the end. -/
def putRow (row : Row) : List Row → List Row
  | [] => [row]
  | stored :: rest => if stored.head? = row.head? then row :: rest else stored :: putRow row rest

/-- Inserts rows, each in place of a stored row with the same first value. -/
def upsert (table : Table) (rows : List Row) : Result Nat × Table :=
  match rows.mapM table.definition.coerce with
  | .error error => (.error error, table)
  | .ok added =>
    (.ok added.length,
      { table with rows := added.foldl (fun rows row => putRow row rows) table.rows })

/-- Replaces the rows for which `change` gives a new one: the number of those, and all rows. -/
def updateRows {σ : Type} (definition : TableDef) (change : Row → StateT σ Result (Option Row)) :
    List Row → StateT σ Result (Nat × List Row)
  | [] => return (0, [])
  | row :: rest => do
    match ← change row with
    | some changed =>
      let stored ← definition.coerce changed
      let (count, rows) ← updateRows definition change rest
      return (count + 1, stored :: rows)
    | none =>
      let (count, rows) ← updateRows definition change rest
      return (count, row :: rows)

def update (table : Table) (change : Asking (Option Row)) : Result Nat × Table :=
  match (updateRows table.definition change.ask table.rows).run' change.start with
  | .error error => (.error error, table)
  | .ok (count, rows) => (.ok count, { table with rows })

def remaining {σ : Type} (accepts : Row → StateT σ Result Bool) :
    List Row → StateT σ Result (List Row)
  | [] => return []
  | row :: rest => do
    let removed ← accepts row
    let kept ← remaining accepts rest
    return if removed then kept else row :: kept

def delete (table : Table) (accepts : Asking Bool) : Result Nat × Table :=
  match (remaining accepts.ask table.rows).run' accepts.start with
  | .error error => (.error error, table)
  | .ok kept => (.ok (table.rows.length - kept.length), { table with rows := kept })

end Table
end SqlPipeline
