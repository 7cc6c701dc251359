import SqlPipeline.Bound.Function
import SqlPipeline.Value.Operators

/-!
# Bound expressions

An expression whose references to columns are positions in a row, and its value on a row. The
right side of a conjunction or disjunction is not looked at if the left side decides it.
-/

namespace SqlPipeline

/-- An expression on the rows of one layout. -/
inductive Bound where
  | column (position : Nat)
  | literal (value : Value)
  | unary (op : Sql.UnaryOp) (operand : Bound)
  | binary (left : Bound) (op : Sql.BinaryOp) (right : Bound)
  | isNull (operand : Bound) (negated : Bool)
  | call (function : Function) (args : List Bound)
deriving Repr, Inhabited

namespace Bound

/-- The value of a conjunction or disjunction whose left side decides it. -/
def decided? (op : Sql.BinaryOp) (left : Value) : Option Value :=
  match op, left with
  | .and, .boolean false => some (.boolean false)
  | .or, .boolean true => some (.boolean true)
  | _, _ => none

mutual

def eval (row : Row) : Bound → Result Value
  | column position =>
    match row[position]? with
    | some value => .ok value
    | none => .error (.runtime ("Column " ++ toString position ++ " out of range"))
  | literal value => .ok value
  | unary op operand => do
    Value.applyUnary op (← operand.eval row)
  | binary left op right => do
    let value ← left.eval row
    match decided? op value with
    | some result => return result
    | none => value.applyBinary op (← right.eval row)
  | isNull operand negated => do
    return .boolean ((← operand.eval row).isNull != negated)
  | call function args => do
    function.apply (← evalAll row args)
termination_by structural bound => bound

def evalAll (row : Row) : List Bound → Result (List Value)
  | [] => .ok []
  | bound :: rest => do
    let value ← bound.eval row
    return value :: (← evalAll row rest)
termination_by structural bounds => bounds

end

/-- Whether a row satisfies an expression. One whose truth is unknown is not satisfied. -/
def accepts (bound : Bound) (row : Row) : Result Bool := do
  return (← (← bound.eval row).truth?).getD false

end Bound
end SqlPipeline
