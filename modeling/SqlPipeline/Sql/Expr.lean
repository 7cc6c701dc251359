import SqlPipeline.Sql.Name

/-!
# Expressions

The expressions of a statement as they were written, their text, and the visit of all parts of an
expression from the outside in.
-/

namespace SqlPipeline.Sql

inductive UnaryOp where
  | plus | minus | not
deriving DecidableEq, Repr, Inhabited

/-- The operator in statement text; a word is set off from its operand. -/
def UnaryOp.text : UnaryOp → String
  | .plus => "+"
  | .minus => "-"
  | .not => "NOT "

inductive BinaryOp where
  | plus | minus | multiply | divide | modulo
  | gt | lt | gtEq | ltEq | eq | notEq
  | and | or
deriving DecidableEq, Repr, Inhabited

def BinaryOp.text : BinaryOp → String
  | .plus => "+"
  | .minus => "-"
  | .multiply => "*"
  | .divide => "/"
  | .modulo => "%"
  | .gt => ">"
  | .lt => "<"
  | .gtEq => ">="
  | .ltEq => "<="
  | .eq => "="
  | .notEq => "!="
  | .and => "AND"
  | .or => "OR"

inductive Literal where
  /-- A number as it was written. -/
  | number (digits : String)
  | string (value : String)
  | boolean (value : Bool)
  | null
deriving DecidableEq, Repr, Inhabited

def Literal.text : Literal → String
  | .number digits => digits
  | .string value => Text.enquote '\'' value
  | .boolean true => "TRUE"
  | .boolean false => "FALSE"
  | .null => "NULL"

mutual

inductive Expr where
  /-- The name of a column. -/
  | ident (name : Ident)
  /-- The name of a column after the name of its table. -/
  | qualified (parts : List Ident)
  | literal (value : Literal)
  | unary (op : UnaryOp) (operand : Expr)
  | binary (left : Expr) (op : BinaryOp) (right : Expr)
  /-- `IS NULL`, or `IS NOT NULL` if negated. -/
  | isNull (operand : Expr) (negated : Bool)
  | call (function : Ident) (args : Args)
  /-- An expression in parentheses. -/
  | nested (inner : Expr)
deriving DecidableEq, Repr

inductive Args where
  | nil
  /-- The argument `*`. -/
  | star (rest : Args)
  | value (arg : Expr) (rest : Args)
deriving DecidableEq, Repr

end

instance : Inhabited Expr := ⟨.literal .null⟩

def Args.length : Args → Nat
  | .nil => 0
  | .star rest => rest.length + 1
  | .value _ rest => rest.length + 1

mutual

/-- An expression in statement text. A function is shown by its look-up key. -/
def Expr.text : Expr → String
  | .ident name => name.text
  | .qualified parts => dotted parts
  | .literal value => value.text
  | .unary op operand => op.text ++ operand.text
  | .binary left op right => left.text ++ " " ++ op.text ++ " " ++ right.text
  | .isNull operand false => operand.text ++ " IS NULL"
  | .isNull operand true => operand.text ++ " IS NOT NULL"
  | .call function args => function.key ++ "(" ++ args.text ++ ")"
  | .nested inner => "(" ++ inner.text ++ ")"

def Args.text : Args → String
  | .nil => ""
  | .star .nil => "*"
  | .star rest => "*, " ++ rest.text
  | .value arg .nil => arg.text
  | .value arg rest => arg.text ++ ", " ++ rest.text

end

/-- The name of the column an expression makes: the key of a column's own name, else the text. -/
def Expr.columnName : Expr → String
  | .ident name => name.key
  | .qualified parts => (parts.getLast?.map Ident.key).getD ""
  | other => other.text

mutual

/-- An expression and all its parts, each before its own parts, from left to right. -/
def Expr.parts : Expr → List Expr
  | e@(.ident _) | e@(.qualified _) | e@(.literal _) => [e]
  | e@(.unary _ operand) => e :: operand.parts
  | e@(.binary left _ right) => e :: (left.parts ++ right.parts)
  | e@(.isNull operand _) => e :: operand.parts
  | e@(.call _ args) => e :: args.parts
  | e@(.nested inner) => e :: inner.parts

def Args.parts : Args → List Expr
  | .nil => []
  | .star rest => rest.parts
  | .value arg rest => arg.parts ++ rest.parts

end

end SqlPipeline.Sql
