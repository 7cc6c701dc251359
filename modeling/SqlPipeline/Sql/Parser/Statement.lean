import SqlPipeline.Sql.Parser.Expr
import SqlPipeline.Sql.Statement

/-!
# Parsing statements

The parsers of the clauses and statements. The statement inside a PREPARE is read from a text of
its own; how that is done is left to a parameter.
-/

namespace SqlPipeline.Sql.Parser

/-- The table whose columns are all meant, if the tokens start with a dotted name that ends in a
star. -/
def starredName? : List Located → Option (List Ident × List Located)
  | name :: period :: rest =>
    match identOf name with
    | .error _ => none
    | .ok ident =>
      if period.token = .sign .period then
        match rest with
        | star :: others =>
          if star.token = .sign .star then some ([ident], others)
          else (starredName? rest).map fun (idents, others) => (ident :: idents, others)
        | [] => none
      else none
  | _ => none

def selectItem : Parser SelectItem := do
  if ← sign? .star then
    return .all
  match starredName? (← get) with
  | some (idents, rest) =>
    set rest
    return .allOf ⟨idents⟩
  | none =>
    let value ← expr
    match ← alias? with
    | some name => return .aliased value name
    | none => return .expr value

def tableRef : Parser TableRef := do
  return ⟨← objectName, ← alias?⟩

def joinKind? : Parser (Option JoinKind) := do
  if ← keywords? [.JOIN] then return some .inner
  if ← keywords? [.INNER, .JOIN] then return some .inner
  if ← keywords? [.LEFT, .JOIN] then return some .left
  if ← keywords? [.LEFT, .OUTER, .JOIN] then return some .left
  return none

/-- The joins that follow, at most as many as the budget allows. -/
def joinsWithin : Nat → Parser (List Join)
  | 0 => outOfBudget
  | budget + 1 => do
    match ← joinKind? with
    | none => return []
    | some kind =>
      let table ← tableRef
      expectKeyword .ON
      let on ← expr
      return ⟨kind, table, on⟩ :: (← joinsWithin budget)

def fromClause : Parser From := do
  let table ← tableRef
  let joins ← joinsWithin ((← get).length + 1)
  return ⟨table, joins⟩

/-- The groups of a GROUP BY, none if there is no such clause. -/
def groupBy : Parser (List Expr) := do
  if ← keywords? [.GROUP, .BY] then
    commaList expr
  else return []

/-- What follows SELECT. -/
def select : Parser Select := do
  let distinct ← keyword? .DISTINCT
  let items ← commaList selectItem
  let into ← clause? .INTO objectName
  let source ← clause? .FROM fromClause
  let condition ← clause? .WHERE expr
  let groups ← groupBy
  let having ← clause? .HAVING expr
  return ⟨distinct, items, into, source, condition, groups, having⟩

/-- What follows INSERT INTO or UPSERT INTO. -/
def insert : Parser Insert := do
  let table ← objectName
  let columns ← match ← peek? with
    | some ⟨.sign .leftParen, _⟩ => parenthesized ident
    | _ => pure []
  expectKeyword .VALUES
  let rows ← commaList (parenthesized expr)
  return ⟨table, columns, rows⟩

def assignment : Parser Assignment := do
  let column ← ident
  expectSign .eq
  return ⟨column, ← expr⟩

def update : Parser Update := do
  let table ← objectName
  expectKeyword .SET
  let assignments ← commaList assignment
  return ⟨table, assignments, ← clause? .WHERE expr⟩

def delete : Parser Delete := do
  return ⟨← objectName, ← clause? .WHERE expr⟩

def showing : Parser Show := do
  if ← keyword? .TABLES then return .tables
  if ← keyword? .COLUMNS then
    expectKeyword .FROM
    return .columns (← objectName)
  return .variable (← ident)

def setVariable : Parser SetVariable := do
  let name ← objectName
  expectSign .eq
  return ⟨name, ← expr⟩

/-- What follows PREPARE: a name and a string that `read` finds one statement in. -/
def prepare (read : String → Except ParseError (List Statement)) : Parser Statement := do
  let name ← ident
  expectKeyword .FROM
  let t ← next "a quoted SQL string"
  match t.token with
  | .string sql =>
    match ← read sql with
    | [statement] => return .prepare name sql statement
    | statements =>
      failAt t ("Expected exactly one statement to prepare, got " ++ toString statements.length)
  | token => failAt t ("Expected a quoted SQL string, got " ++ token.text)

/-- A statement, where `read` reads the texts that are prepared. -/
def statement (read : String → Except ParseError (List Statement)) : Parser Statement := do
  let t ← next "a SQL statement"
  match t.token.keyword? with
  | none => failAt t ("Expected a SQL statement, got " ++ t.token.text)
  | some .SELECT =>
    let s ← select
    match s.into with
    | some target => return .into target { s with into := none }
    | none => return .select s
  | some .INSERT =>
    expectKeyword .INTO
    return .insert (← insert)
  | some .UPSERT =>
    expectKeyword .INTO
    return .upsert (← insert)
  | some .UPDATE => return .update (← update)
  | some .DELETE =>
    expectKeyword .FROM
    return .delete (← delete)
  | some .SHOW => return .showing (← showing)
  | some .DESCRIBE | some .DESC => return .describe (← objectName)
  | some .SET => return .set (← setVariable)
  | some .PREPARE => prepare read
  | some keyword => failAt t ("Unexpected keyword: " ++ keyword.name)

end SqlPipeline.Sql.Parser
