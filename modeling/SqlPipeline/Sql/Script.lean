import SqlPipeline.Sql.Lexer
import SqlPipeline.Sql.Parser.Statement

/-!
# Scripts

A script is a text of statements with semicolons between them. Each statement is found together
with the part of the text it was read from, which starts at its first token and ends before its
semicolon.
-/

namespace SqlPipeline.Sql

/-- A statement and where its text starts and ends; without an end it reaches to the end of the
script. -/
structure Spanned where
  statement : Statement
  first : Nat
  last : Option Nat
deriving DecidableEq, Repr, Inhabited

namespace Parser

/-- The statements that follow, at most as many as the budget allows. -/
def statementsWithin (read : String → Except ParseError (List Statement)) :
    Nat → Parser (List Spanned)
  | 0 => outOfBudget
  | budget + 1 => do
    set ((← get).dropWhile (·.token = .sign .semicolon))
    match ← peek? with
    | none => return []
    | some start =>
      let found ← statement read
      match ← peek? with
      | none => return [⟨found, start.offset, none⟩]
      | some stop =>
        unless ← sign? .semicolon do unexpected "end of statement"
        return ⟨found, start.offset, some stop.offset⟩ :: (← statementsWithin read budget)

/-- Reads the statements of a text that has a token. -/
def readWith (read : String → Except ParseError (List Statement)) (sql : String) :
    Except ParseError (List Spanned) := do
  let tokens ← tokenize sql
  if tokens.isEmpty then
    throw ⟨"Empty SQL statement", none⟩
  let (found, _) ← (statementsWithin read (tokens.length + 1)).run tokens
  return found

/-- The statements of a text in which texts to prepare are nested less than `depth` deep. -/
def statementsIn : Nat → String → Except ParseError (List Statement)
  | 0, _ => throw ⟨"Statement exceeds its parsing budget", none⟩
  | depth + 1, sql => do
    return (← readWith (statementsIn depth) sql).map (·.statement)

end Parser

namespace Script

/-- The statements of a script with their places. A text to prepare is shorter than the text it
stands in, so the length of the script bounds how deep such texts are nested. -/
def spanned (sql : String) : Except ParseError (List Spanned) :=
  Parser.readWith (Parser.statementsIn sql.length) sql

/-- The statements of a script. A text of blanks and comments is refused; one of semicolons has
no statements. -/
def parse (sql : String) : Except ParseError (List Statement) := do
  return (← spanned sql).map (·.statement)

/-- The text a statement was read from, without blanks at its end. -/
def sourceOf (sql : String) (found : Spanned) : String :=
  let cs := sql.toList
  let last := found.last.getD (Text.byteLength cs)
  String.ofList (Text.trimEnd (Text.sliceBytes found.first last cs))

def parseWithSource (sql : String) : Except ParseError (List (Statement × String)) := do
  return (← spanned sql).map fun found => (found.statement, sourceOf sql found)

/-- The expression with which a text starts, and the tokens after it. -/
def expr (sql : String) : Except ParseError (Expr × List Located) := do
  Parser.expr.run (← tokenize sql)

/-- The reference to a table with which a text starts, and the tokens after it. -/
def tableRef (sql : String) : Except ParseError (TableRef × List Located) := do
  Parser.tableRef.run (← tokenize sql)

end Script
end SqlPipeline.Sql
