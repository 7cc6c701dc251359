import SqlPipeline.Sql.Expr
import SqlPipeline.Sql.Parser.Basic

/-!
# Parsing expressions

Operators bind by level, the loosest first: `OR`, `AND`, `NOT`, `IS NULL`, comparisons, sums,
products, signs. Operators of one level group to the left. An expression is read at a level: it
takes in every operator that binds tighter than that level and stops before the first that does
not.
-/

namespace SqlPipeline.Sql

def BinaryOp.level : BinaryOp → Nat
  | .or => 5
  | .and => 10
  | .gt | .lt | .gtEq | .ltEq | .eq | .notEq => 20
  | .plus | .minus => 30
  | .multiply | .divide | .modulo => 40

/-- The level at which the operand of a unary operator is read. -/
def UnaryOp.level : UnaryOp → Nat
  | .not => 15
  | .plus | .minus => 50

/-- What can follow a complete expression and extend it. -/
inductive Extension where
  | isNull
  | binary (op : BinaryOp)
deriving DecidableEq, Repr

namespace Extension

def level : Extension → Nat
  | isNull => 17
  | binary op => op.level

def ofToken? : Token → Option Extension
  | .word w =>
    match w.keyword with
    | some .OR => some (.binary .or)
    | some .AND => some (.binary .and)
    | some .IS => some .isNull
    | _ => none
  | .sign .eq => some (.binary .eq)
  | .sign .neq => some (.binary .notEq)
  | .sign .lt => some (.binary .lt)
  | .sign .ltEq => some (.binary .ltEq)
  | .sign .gt => some (.binary .gt)
  | .sign .gtEq => some (.binary .gtEq)
  | .sign .plus => some (.binary .plus)
  | .sign .minus => some (.binary .minus)
  | .sign .star => some (.binary .multiply)
  | .sign .slash => some (.binary .divide)
  | .sign .percent => some (.binary .modulo)
  | _ => none

end Extension

namespace Parser

mutual

/-- An expression whose operators all bind tighter than `level`. -/
def exprAt : Nat → Nat → Parser Expr
  | 0, _ => outOfBudget
  | budget + 1, level => do
    let first ← operand budget
    extend budget level first

/-- An expression without operators after it. -/
def operand : Nat → Parser Expr
  | 0 => outOfBudget
  | budget + 1 => do
    let t ← next "an expression"
    match t.token with
    | .number digits => return .literal (.number digits)
    | .string value => return .literal (.string value)
    | .sign .minus => return .unary .minus (← exprAt budget UnaryOp.minus.level)
    | .sign .plus => return .unary .plus (← exprAt budget UnaryOp.plus.level)
    | .sign .leftParen =>
      let inner ← exprAt budget 0
      expectSign .rightParen
      return .nested inner
    | .sign sign => failAt t ("Unexpected token '" ++ sign.text ++ "' in expression")
    | .word w =>
      match w.keyword with
      | some .NOT => return .unary .not (← exprAt budget UnaryOp.not.level)
      | some .TRUE => return .literal (.boolean true)
      | some .FALSE => return .literal (.boolean false)
      | some .NULL => return .literal .null
      | some keyword =>
        if keyword.isReserved then
          failAt t ("Unexpected keyword " ++ keyword.name ++ " in expression")
        else named budget ⟨w.value, w.quoted⟩
      | none => named budget ⟨w.value, w.quoted⟩

/-- What a name at the start of an expression stands for: a call if a parenthesis follows, else a
column. -/
def named : Nat → Ident → Parser Expr
  | 0, _ => outOfBudget
  | budget + 1, name => do
    if ← sign? .leftParen then
      if ← sign? .rightParen then
        return .call name .nil
      let args ← arguments budget
      expectSign .rightParen
      return .call name args
    match ← dottedTail with
    | [] => return .ident name
    | others => return .qualified (name :: others)

/-- The arguments of a call, at least one. -/
def arguments : Nat → Parser Args
  | 0 => outOfBudget
  | budget + 1 => do
    if ← sign? .star then
      if ← sign? .comma then
        return .star (← arguments budget)
      return .star .nil
    let first ← exprAt budget 0
    if ← sign? .comma then
      return .value first (← arguments budget)
    return .value first .nil

/-- Extends a complete expression by the operators that follow and bind tighter than `level`. -/
def extend : Nat → Nat → Expr → Parser Expr
  | 0, _, _ => outOfBudget
  | budget + 1, level, left => do
    match ← get with
    | [] => return left
    | t :: rest =>
      match Extension.ofToken? t.token with
      | none => return left
      | some extension =>
        if level < extension.level then
          set rest
          match extension with
          | .isNull =>
            let negated ← keyword? .NOT
            expectKeyword .NULL
            extend budget level (.isNull left negated)
          | .binary op =>
            let right ← exprAt budget op.level
            extend budget level (.binary left op right)
        else return left

end

/-- The budget with which an expression is read from so many tokens: no step is taken more than
three times without reading one. -/
def exprBudget (tokens : Nat) : Nat :=
  3 * (tokens + 1)

/-- An expression. It ends where no operator extends it. -/
def expr : Parser Expr := do
  exprAt (exprBudget (← get).length) 0

end Parser
end SqlPipeline.Sql
