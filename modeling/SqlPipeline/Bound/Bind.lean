import SqlPipeline.Bound.Basic
import SqlPipeline.Layout
import SqlPipeline.Value.Cast

/-!
# Binding expressions

An expression is bound to a layout from the outside in: one whose text is the name of a computed
column is that column, and only otherwise are its parts bound. Names and literals are never taken
for computed columns this way.
-/

namespace SqlPipeline

/-- The names of the functions that are computed over many rows. -/
def aggregateNames : List String :=
  ["count", "sum", "min", "max", "avg"]

namespace Bound

open Sql (Expr Args Ident)

/-- The column a dotted name of at least two parts refers to. All but the last two parts are
ignored. -/
def ofQualified (layout : Layout) (parts : List Ident) : Result Bound :=
  match parts.reverse with
  | name :: relation :: _ => do return column (← layout.resolve (some relation.key) name.key)
  | _ => .error (.plan ("Invalid column reference: " ++ Sql.dotted parts))

/-- The function a call of `count` arguments refers to. `text` is the text of the call. -/
def functionOf (name : Ident) (count : Nat) (text : String) : Result Function :=
  if aggregateNames.contains name.key then
    .error (.plan ("Aggregate " ++ text
      ++ " not allowed here, it must be part of a select list or HAVING"))
  else match Function.ofName? name.key with
    | none => .error (.plan ("Unknown function: " ++ name.key))
    | some function =>
      if function.takes count then .ok function
      else .error (.plan ("Invalid number of arguments to " ++ function.name ++ ": "
        ++ toString count))

mutual

def bind (layout : Layout) : Expr → Result Bound
  | .ident name => do return column (← layout.resolve none name.key)
  | .qualified parts => ofQualified layout parts
  | .literal value => do return literal (← Value.ofLiteral value)
  | .unary op operand =>
    match layout.computed? (Expr.unary op operand).text with
    | some position => .ok (column position)
    | none => do return unary op (← bind layout operand)
  | .binary left op right =>
    match layout.computed? (Expr.binary left op right).text with
    | some position => .ok (column position)
    | none => do
      let left ← bind layout left
      return binary left op (← bind layout right)
  | .isNull operand negated =>
    match layout.computed? (Expr.isNull operand negated).text with
    | some position => .ok (column position)
    | none => do return isNull (← bind layout operand) negated
  | .nested inner =>
    match layout.computed? (Expr.nested inner).text with
    | some position => .ok (column position)
    | none => bind layout inner
  | .call name args =>
    let text := (Expr.call name args).text
    match layout.computed? text with
    | some position => .ok (column position)
    | none => do
      let function ← functionOf name args.length text
      return call function (← bindArgs layout text args)

def bindArgs (layout : Layout) (text : String) : Args → Result (List Bound)
  | .nil => .ok []
  | .star _ => .error (.plan ("Unexpected * in " ++ text))
  | .value arg rest => do
    let first ← bind layout arg
    return first :: (← bindArgs layout text rest)

end

/-- Binds an expression that does not refer to any column. -/
def bindConstant (expr : Expr) : Result Bound :=
  bind .empty expr

end Bound
end SqlPipeline
