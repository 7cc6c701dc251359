import SqlPipeline.Number.DoubleText
import SqlPipeline.Text.Basic

/-!
# JSON data

A JSON value with its numbers computed and its strings decoded, and its compact text.
-/

namespace SqlPipeline

inductive Json where
  | null
  | boolean (value : Bool)
  | int (value : Int)
  | float (value : Number.Binary64)
  | string (value : String)
  | array (items : List Json)
  /-- Members of different names, in the order of their names. -/
  | object (members : List (String × Json))
deriving Repr, Inhabited

namespace Json

/-- Adds a member to sorted members; one of the same name is replaced. -/
def insertMember (name : String) (value : Json) : List (String × Json) → List (String × Json)
  | [] => [(name, value)]
  | (other, old) :: rest =>
    match compare name other with
    | .lt => (name, value) :: (other, old) :: rest
    | .eq => (name, value) :: rest
    | .gt => (other, old) :: insertMember name value rest

/-- A character in the text of a string. Quotes, backslashes and control characters are escaped,
the usual control characters by a letter. -/
def escapeChar (c : Char) : List Char :=
  if c = '"' then ['\\', '"']
  else if c = '\\' then ['\\', '\\']
  else if c = '\x08' then ['\\', 'b']
  else if c = '\x0c' then ['\\', 'f']
  else if c = '\n' then ['\\', 'n']
  else if c = '\r' then ['\\', 'r']
  else if c = '\t' then ['\\', 't']
  else if c.toNat < 0x20 then
    ['\\', 'u', '0', '0', Nat.digitChar (c.toNat / 16), Nat.digitChar (c.toNat % 16)]
  else [c]

def quote (s : String) : String :=
  String.ofList ('"' :: s.toList.flatMap escapeChar ++ ['"'])

mutual

def text : Json → String
  | null => "null"
  | boolean value => if value then "true" else "false"
  | int value => toString value
  | float value => value.jsonText
  | string value => quote value
  | array items => "[" ++ Text.join "," (itemTexts items) ++ "]"
  | object members => "\x7b" ++ Text.join "," (memberTexts members) ++ "\x7d"
termination_by structural json => json

def itemTexts : List Json → List String
  | [] => []
  | item :: rest => item.text :: itemTexts rest
termination_by structural items => items

def memberTexts : List (String × Json) → List String
  | [] => []
  | (name, value) :: rest => (quote name ++ ":" ++ value.text) :: memberTexts rest
termination_by structural members => members

end

end Json
end SqlPipeline
