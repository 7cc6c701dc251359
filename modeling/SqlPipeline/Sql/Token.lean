import SqlPipeline.Sql.Keyword

/-!
# Tokens

The words, literals and signs a statement is made of, and the error that reading one can end in.
-/

namespace SqlPipeline.Sql

structure Word where
  /-- The text of the word, without the quotes of a quoted word. -/
  value : String
  quoted : Bool
  /-- The keyword the word spells. A quoted word spells none. -/
  keyword : Option Keyword
deriving DecidableEq, Repr, Inhabited

inductive Sign where
  | comma | period | semicolon | leftParen | rightParen
  | eq | neq | lt | ltEq | gt | gtEq
  | plus | minus | star | slash | percent
deriving DecidableEq, Repr, Inhabited

/-- The one spelling in which a sign is shown. -/
def Sign.text : Sign → String
  | .comma => ","
  | .period => "."
  | .semicolon => ";"
  | .leftParen => "("
  | .rightParen => ")"
  | .eq => "="
  | .neq => "!="
  | .lt => "<"
  | .ltEq => "<="
  | .gt => ">"
  | .gtEq => ">="
  | .plus => "+"
  | .minus => "-"
  | .star => "*"
  | .slash => "/"
  | .percent => "%"

inductive Token where
  | word (word : Word)
  /-- A number as it was written. -/
  | number (digits : String)
  /-- A string without its quotes. -/
  | string (value : String)
  | sign (sign : Sign)
deriving DecidableEq, Repr, Inhabited

namespace Token

/-- A token as error messages show it: quotes within a quoted text are not doubled. -/
def text : Token → String
  | word w => if w.quoted then "\"" ++ w.value ++ "\"" else w.value
  | number digits => digits
  | string value => "'" ++ value ++ "'"
  | sign s => s.text

def keyword? : Token → Option Keyword
  | word w => w.keyword
  | _ => none

end Token

/-- A token and the byte position where it starts. -/
structure Located where
  token : Token
  offset : Nat
deriving DecidableEq, Repr, Inhabited

/-- Why a text is no statement, and the byte position where that was seen, if there is one. -/
structure ParseError where
  message : String
  offset : Option Nat
deriving DecidableEq, Repr, Inhabited

end SqlPipeline.Sql
