import SqlPipeline.Sql.Name
import SqlPipeline.Sql.Token

/-!
# Parsers

A parser reads from the front of a list of tokens and leaves the unread rest. This module holds
the steps from which the parsers of expressions and statements are put together: single tokens,
names and lists.
-/

namespace SqlPipeline.Sql

/-- Reads a value from the front of the tokens and leaves the rest. -/
abbrev Parser (α : Type) := StateT (List Located) (Except ParseError) α

namespace Parser

variable {α : Type}

def failAt (token : Located) (message : String) : Parser α :=
  throw ⟨message, some token.offset⟩

/-- Fails because something else was expected next. -/
def unexpected (expected : String) : Parser α := do
  match ← get with
  | [] => throw ⟨"Expected " ++ expected ++ ", found end of statement", none⟩
  | t :: _ => failAt t ("Expected " ++ expected ++ ", got " ++ t.token.text)

/-- Fails because a budget of steps was too small. -/
def outOfBudget : Parser α :=
  throw ⟨"Statement exceeds its parsing budget", none⟩

def next (expected : String) : Parser Located := do
  match ← get with
  | [] => unexpected expected
  | t :: rest =>
    set rest
    return t

/-- The next token, left unread. -/
def peek? : Parser (Option Located) := do
  return (← get).head?

def keyword? (keyword : Keyword) : Parser Bool := do
  match ← get with
  | t :: rest =>
    if t.token.keyword? = some keyword then
      set rest
      return true
    else return false
  | [] => return false

/-- Reads the given keywords if they all come next, and none of them otherwise. -/
def keywords? (keywords : List Keyword) : Parser Bool := do
  let tokens ← get
  if keywords.map some == (tokens.take keywords.length).map (·.token.keyword?) then
    set (tokens.drop keywords.length)
    return true
  else return false

def expectKeyword (keyword : Keyword) : Parser Unit := do
  unless ← keyword? keyword do unexpected keyword.name

def sign? (sign : Sign) : Parser Bool := do
  match ← get with
  | t :: rest =>
    if t.token = .sign sign then
      set rest
      return true
    else return false
  | [] => return false

def expectSign (sign : Sign) : Parser Unit := do
  unless ← sign? sign do unexpected ("'" ++ sign.text ++ "'")

def identOf (t : Located) : Except ParseError Ident :=
  match t.token with
  | .word w =>
    match w.keyword with
    | some keyword =>
      if keyword.isReserved then
        .error ⟨"Expected an identifier, got reserved keyword " ++ keyword.name, some t.offset⟩
      else .ok ⟨w.value, w.quoted⟩
    | none => .ok ⟨w.value, w.quoted⟩
  | token =>
    .error ⟨"Unexpected token: " ++ token.text ++ ". Expected an identifier.", some t.offset⟩

def ident : Parser Ident := do
  let t ← next "identifier"
  identOf t

/-- The names that follow, each after a period. -/
def dottedTail : List Located → Except ParseError (List Ident × List Located)
  | [] => .ok ([], [])
  | t :: rest =>
    if t.token = .sign .period then
      match rest with
      | [] => (unexpected "identifier" : Parser (List Ident)).run []
      | name :: rest => do
        let first ← identOf name
        let (others, rest) ← dottedTail rest
        return (first :: others, rest)
    else .ok ([], t :: rest)

def objectName : Parser ObjectName := do
  let first ← ident
  let others ← dottedTail
  return ⟨first :: others⟩

/-- Items with commas between them, at least one and at most as many as the budget allows. -/
def commaListWithin (item : Parser α) : Nat → Parser (List α)
  | 0 => outOfBudget
  | budget + 1 => do
    let first ← item
    if ← sign? .comma then
      return first :: (← commaListWithin item budget)
    else return [first]

/-- Items with commas between them, at least one. Each comma is a token, which bounds their
number. -/
def commaList (item : Parser α) : Parser (List α) := do
  commaListWithin item ((← get).length + 1)

def parenthesized (item : Parser α) : Parser (List α) := do
  expectSign .leftParen
  let items ← commaList item
  expectSign .rightParen
  return items

/-- A name after `AS`, or a word that is no keyword. -/
def alias? : Parser (Option Ident) := do
  if ← keyword? .AS then
    return some (← ident)
  match ← peek? with
  | some ⟨.word ⟨_, _, none⟩, _⟩ => return some (← ident)
  | _ => return none

/-- What follows the given keyword, if that comes next. -/
def clause? (keyword : Keyword) (content : Parser α) : Parser (Option α) := do
  if ← keyword? keyword then
    return some (← content)
  else return none

end Parser
end SqlPipeline.Sql
