import SqlPipeline.Bound.Bind

/-!
# Aggregates

Functions that are computed over the rows of a group. An accumulator takes the values in one by
one, leaving out NULLs, and gives the result at the end.
-/

namespace SqlPipeline

open Number (Binary64)
open Sql (Expr)

inductive AggregateFunction where
  | count | sum | min | max | avg
deriving DecidableEq, Repr, Inhabited

namespace AggregateFunction

def all : List AggregateFunction :=
  [count, sum, min, max, avg]

def name : AggregateFunction → String
  | count => "count"
  | sum => "sum"
  | min => "min"
  | max => "max"
  | avg => "avg"

def ofName? (name : String) : Option AggregateFunction :=
  all.find? (·.name == name)

/-- What is an aggregate is no function of single values. -/
theorem map_name_all : all.map name = aggregateNames := rfl

end AggregateFunction

/-- The state of an aggregate within a group. -/
inductive Accumulator where
  | count (n : Nat)
  | sum (total : Option Value)
  | min (least : Option Value)
  | max (greatest : Option Value)
  | avg (total : Binary64) (n : Nat)
deriving DecidableEq, Repr, Inhabited

namespace Accumulator

def start : AggregateFunction → Accumulator
  | .count => count 0
  | .sum => sum none
  | .min => min none
  | .max => max none
  | .avg => avg (.zero false) 0

/-- Whether a value comes before or after the present one, as wanted. -/
def replaces (wanted : Ordering) (value : Value) : Option Value → Result Bool
  | none => .ok true
  | some present => do return (← value.compare? present) == some wanted

/-- Takes in a value that is not NULL. -/
def addValue (value : Value) : Accumulator → Result Accumulator
  | count n => .ok (count (n + 1))
  | sum none => .ok (sum (some value))
  | sum (some total) => do return sum (some (← total.applyBinary .plus value))
  | min least => do return if ← replaces .lt value least then min (some value) else min least
  | max greatest => do
    return if ← replaces .gt value greatest then max (some value) else max greatest
  | avg total n =>
    match value.toDouble? with
    | some x => .ok (avg (total.add x) (n + 1))
    | none => .error (.plan ("Cannot average " ++ value.text))

/-- Takes in a value; NULL changes nothing. -/
def add (acc : Accumulator) (value : Value) : Result Accumulator :=
  if value.isNull then .ok acc else acc.addValue value

def finish : Accumulator → Value
  | count n => Value.count n
  | sum result | min result | max result => result.getD .null
  | avg total n => if n = 0 then .null else .float (total.div (.ofInt n))

end Accumulator

structure Aggregate where
  function : AggregateFunction
  /-- The argument; `COUNT(*)` has none. -/
  arg : Option Bound
  /-- The text of the call, which names its column. -/
  name : String
deriving Repr, Inhabited

namespace Aggregate

/-- Binds the argument of an expression that is a call of an aggregate function. -/
def ofCall? (layout : Layout) : Expr → Result (Option Aggregate)
  | .call name args =>
    let text := (Expr.call name args).text
    match AggregateFunction.ofName? name.key with
    | none => .ok none
    | some function =>
      match function, args with
      | .count, .star .nil => .ok (some ⟨function, none, text⟩)
      | _, .value arg .nil => do
        return some ⟨function, some (← Bound.bind layout arg), text⟩
      | _, _ => .error (.plan ("Invalid arguments to aggregate " ++ text))
  | _ => .ok none

def addNew (found : List Aggregate) (aggregate : Aggregate) : List Aggregate :=
  if found.any (·.name == aggregate.name) then found else found ++ [aggregate]

/-- All calls of aggregate functions within expressions, each text once. -/
def collect (layout : Layout) (exprs : List Expr) : Result (List Aggregate) :=
  (exprs.flatMap Expr.parts).foldlM (fun found part => do
    match ← ofCall? layout part with
    | some aggregate => return addNew found aggregate
    | none => return found) []

def start (aggregate : Aggregate) : Accumulator :=
  .start aggregate.function

/-- Takes in the value of the argument on a row; without an argument each row counts. -/
def addRow (aggregate : Aggregate) (acc : Accumulator) (row : Row) : Result Accumulator :=
  match aggregate.arg with
  | some arg => do acc.add (← arg.eval row)
  | none => acc.add (.boolean true)

end Aggregate
end SqlPipeline
