/-!
# Keywords

The words with a meaning of their own in a statement. They are recognised in any case of their
letters; all but three are reserved and cannot name a column or a table unless quoted.
-/

namespace SqlPipeline.Sql

/-- A word with a meaning of its own. -/
inductive Keyword where
  | AND | AS | BY | COLUMNS | DELETE | DESC | DESCRIBE | DISTINCT | FALSE | FROM | GROUP | HAVING
  | INNER | INSERT | INTO | IS | JOIN | LEFT | NOT | NULL | ON | OR | OUTER | PREPARE | SELECT
  | SET | SHOW | TABLES | TRUE | UPDATE | UPSERT | VALUES | WHERE
deriving DecidableEq, Repr, Inhabited

namespace Keyword

/-- Every keyword, in alphabetical order. -/
def all : List Keyword :=
  [AND, AS, BY, COLUMNS, DELETE, DESC, DESCRIBE, DISTINCT, FALSE, FROM, GROUP, HAVING, INNER,
   INSERT, INTO, IS, JOIN, LEFT, NOT, NULL, ON, OR, OUTER, PREPARE, SELECT, SET, SHOW, TABLES,
   TRUE, UPDATE, UPSERT, VALUES, WHERE]

def name : Keyword → String
  | AND => "AND" | AS => "AS" | BY => "BY" | COLUMNS => "COLUMNS" | DELETE => "DELETE"
  | DESC => "DESC" | DESCRIBE => "DESCRIBE" | DISTINCT => "DISTINCT" | FALSE => "FALSE"
  | FROM => "FROM" | GROUP => "GROUP" | HAVING => "HAVING" | INNER => "INNER"
  | INSERT => "INSERT" | INTO => "INTO" | IS => "IS" | JOIN => "JOIN" | LEFT => "LEFT"
  | NOT => "NOT" | NULL => "NULL" | ON => "ON" | OR => "OR" | OUTER => "OUTER"
  | PREPARE => "PREPARE" | SELECT => "SELECT" | SET => "SET" | SHOW => "SHOW"
  | TABLES => "TABLES" | TRUE => "TRUE" | UPDATE => "UPDATE" | UPSERT => "UPSERT"
  | VALUES => "VALUES" | WHERE => "WHERE"

/-- The keyword a word spells, whatever the case of its ASCII letters. -/
def ofWord? (word : List Char) : Option Keyword :=
  all.find? fun keyword => keyword.name.toList == word.map Char.toUpper

/-- Reserved keywords cannot stand for a name. -/
def isReserved : Keyword → Bool
  | COLUMNS | TABLES | DESC => false
  | _ => true

end Keyword
end SqlPipeline.Sql
