import SqlPipeline.Json.Basic
import SqlPipeline.Sql.Expr
import SqlPipeline.Text.LetterCase
import SqlPipeline.Value.Basic

/-!
# Casts, literals and JSON data

A value is cast to the type of the column it is stored in. Text is read as a number or truth
value, a double without fraction becomes an integer, and everything has a text. Literals and plain
JSON data stand for values; an integer beyond 64 bits is a double.
-/

namespace SqlPipeline.Value

/-- The 64-bit integer nearest to a number. -/
def clampInt64 (n : Int) : Int64 :=
  Int64.ofInt (max minInt64 (min maxInt64 n))

def readInt? (cs : List Char) : Option Value :=
  (Number.integer? cs).bind ofInt?

/-- The truth value a text names, in full or by its first letter. -/
def readBoolean? (cs : List Char) : Option Value :=
  let name := Text.lower (String.ofList cs)
  if name = "true" ∨ name = "t" then some (boolean true)
  else if name = "false" ∨ name = "f" then some (boolean false)
  else none

/-- The value cast to the given type, if it has a counterpart there. -/
def cast? (datatype : DataType) (value : Value) : Option Value :=
  match value, datatype with
  | null, _ => some null
  | boolean x, .boolean => some (boolean x)
  | int x, .int64 => some (int x)
  | float x, .float64 => some (float x)
  | utf8 s, .utf8 => some (utf8 s)
  | int x, .float64 => some (float (.ofInt x.toInt))
  | float x, .int64 => x.toInt?.map fun n => int (clampInt64 n)
  | utf8 s, .int64 => readInt? (Text.trim s.toList)
  | utf8 s, .float64 => (Number.Binary64.ofText? (Text.trim s.toList)).map float
  | utf8 s, .boolean => readBoolean? (Text.trim s.toList)
  | other, .utf8 => some (utf8 other.text)
  | _, _ => none

/-- Casts to the given type; NULL stays NULL. -/
def cast (datatype : DataType) (value : Value) : Result Value :=
  match value.cast? datatype with
  | some result => .ok result
  | none => .error (.runtime ("Cannot cast " ++ value.text ++ " to " ++ datatype.text))

/-- The value of a number literal: an integer if it is one of 64 bits, else a double. -/
def ofNumber (digits : String) : Result Value :=
  match readInt? digits.toList with
  | some value => .ok value
  | none =>
    match Number.Binary64.ofText? digits.toList with
    | some value => .ok (float value)
    | none => .error (.plan ("Invalid number literal: " ++ digits))

def ofLiteral : Sql.Literal → Result Value
  | .null => .ok null
  | .boolean value => .ok (boolean value)
  | .string value => .ok (utf8 value)
  | .number digits => ofNumber digits

/-- The value of JSON data that is neither an array nor an object. -/
def ofJson : Json → Result Value
  | .null => .ok null
  | .boolean value => .ok (boolean value)
  | .int n => .ok ((ofInt? n).getD (float (.ofInt n)))
  | .float value => .ok (float value)
  | .string value => .ok (utf8 value)
  | other => .error (.plan ("Unsupported JSON value: " ++ other.text))

end SqlPipeline.Value
