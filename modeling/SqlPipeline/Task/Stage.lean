import SqlPipeline.Aggregate
import SqlPipeline.Sql.Statement

/-!
# Stages

A stage turns the rows it is given, one after the other, into rows that are passed on, and may
have some more to pass on at the end. It keeps a state from row to row and stops at the first row
on which it fails; what it passed on before the failure stays passed on.
-/

namespace SqlPipeline

/-- A way to turn rows into rows, with states of type `σ`. -/
structure Stage (σ : Type) where
  start : σ
  /-- What is passed on for a row, and the state after it. -/
  step : σ → Row → List Row × Result σ
  /-- What is passed on when there are no more rows. -/
  finish : σ → List Row

namespace Stage

/-! ### Running a stage -/

variable {σ : Type}

/-- What is passed on for each row, up to the first on which the stage fails, and the state after
the last. -/
def feed (stage : Stage σ) : σ → List Row → List (List Row) × Result σ
  | state, [] => ([], .ok state)
  | state, row :: rest =>
    match stage.step state row with
    | (out, .error error) => ([out], .error error)
    | (out, .ok next) =>
      let (outs, last) := stage.feed next rest
      (out :: outs, last)

/-- All rows that are passed on for the given rows, and the failure that stopped the stage. -/
def run (stage : Stage σ) (rows : List Row) : List Row × Result Unit :=
  match stage.feed stage.start rows with
  | (outs, .ok last) => (outs.flatten ++ stage.finish last, .ok ())
  | (outs, .error error) => (outs.flatten, .error error)

/-- The number of rows a stage has read when it finds that no more than `taken` of its rows can be
passed on. It gives nothing if all that is passed on row by row can be. -/
def readsFor (taken : Nat) : List (List Row) → Option Nat
  | [] => none
  | out :: outs =>
    if taken < out.length then some 1 else (readsFor (taken - out.length) outs).map (· + 1)

/-! ### The stages of a query -/

def filter (predicate : Bound) : Stage Unit where
  start := ()
  step _ row :=
    match predicate.accepts row with
    | .ok true => ([row], .ok ())
    | .ok false => ([], .ok ())
    | .error error => ([], .error error)
  finish _ := []

def projection (exprs : List Bound) : Stage Unit where
  start := ()
  step _ row :=
    match Bound.evalAll row exprs with
    | .ok values => ([values], .ok ())
    | .error error => ([], .error error)
  finish _ := []

/-- Passes on the rows that were not there before. The state holds those passed on. -/
def distinct : Stage (List Row) where
  start := []
  step seen row := if seen.contains row then ([], .ok seen) else ([row], .ok (row :: seen))
  finish _ := []

/-- The rows a left row is joined to, up to the first on which the condition fails. -/
def matching (on : Bound) (left : Row) : List Row → List Row × Result Unit
  | [] => ([], .ok ())
  | right :: rest =>
    match on.accepts (left ++ right) with
    | .error error => ([], .error error)
    | .ok accepted =>
      let (joined, last) := matching on left rest
      (if accepted then (left ++ right) :: joined else joined, last)

/-- Joins each row to the rows of the right side. In a left join, a row without a match is passed
on once, with NULLs for the columns of the right side. -/
def join (kind : Sql.JoinKind) (on : Bound) (rightWidth : Nat) (rights : List Row) :
    Stage Unit where
  start := ()
  step _ left :=
    match matching on left rights with
    | ([], .ok ()) =>
      (if kind = .left then [left ++ Row.nulls rightWidth] else [], .ok ())
    | (joined, last) => (joined, last)
  finish _ := []

/-! ### Grouping -/

/-- A group: the values of its keys and the states of the aggregates. -/
abbrev Group := Row × List Accumulator

def addRow (row : Row) : List Aggregate → List Accumulator → Result (List Accumulator)
  | aggregate :: aggregates, acc :: accs => do
    let next ← aggregate.addRow acc row
    return next :: (← addRow row aggregates accs)
  | _, _ => .ok []

def startAll (aggregates : List Aggregate) : List Accumulator :=
  aggregates.map Aggregate.start

/-- Takes a row into the group of its keys, which is added at the end if it is new. -/
def addToGroup (aggregates : List Aggregate) (keys row : Row) :
    List Group → Result (List Group)
  | [] => do return [(keys, ← addRow row aggregates (startAll aggregates))]
  | group :: groups => do
    if group.1 = keys then return (keys, ← addRow row aggregates group.2) :: groups
    else return group :: (← addToGroup aggregates keys row groups)

/-- Passes on one row per group at the end: the values of its keys, then the results of the
aggregates. Without keys there is always one group. -/
def groupBy (keys : List Bound) (aggregates : List Aggregate) : Stage (List Group) where
  start := if keys.isEmpty then [([], startAll aggregates)] else []
  step groups row :=
    ([], do addToGroup aggregates (← Bound.evalAll row keys) row groups)
  finish groups := groups.map fun (keys, accs) => keys ++ accs.map Accumulator.finish

end Stage
end SqlPipeline
