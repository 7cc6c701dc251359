import SqlPipeline.Sql.Expr

/-!
# Statements

The statements of the language, clause by clause, and their text.
-/

namespace SqlPipeline.Sql

inductive SelectItem where
  | expr (value : Expr)
  | aliased (value : Expr) (name : Ident)
  /-- All columns of one table. -/
  | allOf (table : ObjectName)
  | all
deriving DecidableEq, Repr, Inhabited

namespace SelectItem

def expr? : SelectItem → Option Expr
  | expr value | aliased value _ => some value
  | _ => none

def text : SelectItem → String
  | expr value => value.text
  | aliased value name => value.text ++ " AS " ++ name.text
  | allOf table => table.text ++ ".*"
  | all => "*"

end SelectItem

structure TableRef where
  name : ObjectName
  aliasName : Option Ident
deriving DecidableEq, Repr, Inhabited

namespace TableRef

/-- The name by which the rest of the statement refers to the table. -/
def binding (table : TableRef) : String :=
  match table.aliasName with
  | some ident => ident.key
  | none => table.name.baseKey

def text (table : TableRef) : String :=
  match table.aliasName with
  | some ident => table.name.text ++ " AS " ++ ident.text
  | none => table.name.text

end TableRef

inductive JoinKind where
  | inner | left
deriving DecidableEq, Repr, Inhabited

structure Join where
  kind : JoinKind
  table : TableRef
  on : Expr
deriving DecidableEq, Repr, Inhabited

def Join.text (join : Join) : String :=
  (match join.kind with
    | .inner => "JOIN "
    | .left => "LEFT JOIN ") ++ join.table.text ++ " ON " ++ join.on.text

structure From where
  table : TableRef
  joins : List Join
deriving DecidableEq, Repr, Inhabited

namespace From

def tables (clause : From) : List TableRef :=
  clause.table :: clause.joins.map Join.table

def text (clause : From) : String :=
  Text.join " " (clause.table.text :: clause.joins.map Join.text)

end From

structure Select where
  distinct : Bool
  items : List SelectItem
  into : Option ObjectName
  source : Option From
  condition : Option Expr
  groupBy : List Expr
  having : Option Expr
deriving DecidableEq, Repr, Inhabited

/-- A clause that may be missing: its words before the text of its content. -/
def clauseText (words : String) (content : Option String) : String :=
  match content with
  | some text => " " ++ words ++ " " ++ text
  | none => ""

def listText (exprs : List Expr) : String :=
  Text.join ", " (exprs.map Expr.text)

def Select.text (select : Select) : String :=
  "SELECT " ++ (if select.distinct then "DISTINCT " else "")
    ++ Text.join ", " (select.items.map SelectItem.text)
    ++ clauseText "INTO" (select.into.map ObjectName.text)
    ++ clauseText "FROM" (select.source.map From.text)
    ++ clauseText "WHERE" (select.condition.map Expr.text)
    ++ (if select.groupBy.isEmpty then "" else " GROUP BY " ++ listText select.groupBy)
    ++ clauseText "HAVING" (select.having.map Expr.text)

/-- What is written after `INSERT INTO` and `UPSERT INTO`. -/
structure Insert where
  table : ObjectName
  /-- The columns the values are for; all columns of the table if none are named. -/
  columns : List Ident
  rows : List (List Expr)
deriving DecidableEq, Repr, Inhabited

def Insert.text (insert : Insert) : String :=
  insert.table.text
    ++ (if insert.columns.isEmpty then ""
        else " (" ++ Text.join ", " (insert.columns.map Ident.text) ++ ")")
    ++ " VALUES " ++ Text.join ", " (insert.rows.map fun row => "(" ++ listText row ++ ")")

structure Assignment where
  column : Ident
  value : Expr
deriving DecidableEq, Repr, Inhabited

def Assignment.text (assignment : Assignment) : String :=
  assignment.column.text ++ " = " ++ assignment.value.text

structure Update where
  table : ObjectName
  assignments : List Assignment
  condition : Option Expr
deriving DecidableEq, Repr, Inhabited

def Update.text (update : Update) : String :=
  "UPDATE " ++ update.table.text ++ " SET "
    ++ Text.join ", " (update.assignments.map Assignment.text)
    ++ clauseText "WHERE" (update.condition.map Expr.text)

structure Delete where
  table : ObjectName
  condition : Option Expr
deriving DecidableEq, Repr, Inhabited

def Delete.text (delete : Delete) : String :=
  "DELETE FROM " ++ delete.table.text ++ clauseText "WHERE" (delete.condition.map Expr.text)

inductive Show where
  | tables
  | columns (table : ObjectName)
  | variable (name : Ident)
deriving DecidableEq, Repr, Inhabited

def Show.text : Show → String
  | .tables => "SHOW TABLES"
  | .columns table => "SHOW COLUMNS FROM " ++ table.text
  | .variable name => "SHOW " ++ name.text

structure SetVariable where
  name : ObjectName
  value : Expr
deriving DecidableEq, Repr, Inhabited

def SetVariable.text (change : SetVariable) : String :=
  "SET " ++ change.name.text ++ " = " ++ change.value.text

inductive Statement where
  | select (select : Select)
  | insert (insert : Insert)
  | upsert (insert : Insert)
  | update (update : Update)
  | delete (delete : Delete)
  | showing (what : Show)
  | describe (table : ObjectName)
  | set (change : SetVariable)
  /-- A select whose rows are meant for a table; the select itself names no target. -/
  | into (target : ObjectName) (select : Select)
  /-- A statement given a name, with the text it was read from. -/
  | prepare (name : Ident) (sql : String) (statement : Statement)
deriving DecidableEq, Repr, Inhabited

namespace Statement

/-- The kind of a statement, as errors show it. -/
def kind : Statement → String
  | select _ => "SELECT"
  | insert _ => "INSERT"
  | upsert _ => "UPSERT"
  | update _ => "UPDATE"
  | delete _ => "DELETE"
  | showing _ => "SHOW"
  | describe _ => "DESCRIBE"
  | set _ => "COMMAND"
  | into _ _ => "INTO"
  | prepare _ _ _ => "PREPARE"

/-- A statement as text. A select into a target is shown with the target at its end, and a
prepared statement with the text it was read from. -/
def text : Statement → String
  | select s => s.text
  | insert i => "INSERT INTO " ++ i.text
  | upsert i => "UPSERT INTO " ++ i.text
  | update u => u.text
  | delete d => d.text
  | showing what => what.text
  | describe table => "DESCRIBE " ++ table.text
  | set change => change.text
  | into target s => s.text ++ " INTO " ++ target.text
  | prepare name sql _ => "PREPARE " ++ name.text ++ " FROM " ++ Text.enquote '\'' sql

end Statement
end SqlPipeline.Sql
