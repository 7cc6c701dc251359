import SqlPipeline.Error
import SqlPipeline.Number.DoubleText
import SqlPipeline.Text.Basic

/-!
# Values

The values of a table's cells, their types and their text, and rows of them. Two values are equal
if they have one type and one content; doubles are compared bit by bit, so that values can serve
as keys.
-/

namespace SqlPipeline

inductive DataType where
  | boolean | int64 | float64 | utf8
deriving DecidableEq, Repr, Inhabited

def DataType.text : DataType → String
  | .boolean => "Boolean"
  | .int64 => "Int64"
  | .float64 => "Float64"
  | .utf8 => "Utf8"

inductive Value where
  | null
  | boolean (value : Bool)
  | int (value : Int64)
  | float (value : Number.Binary64)
  | utf8 (value : String)
deriving DecidableEq, Repr, Inhabited

namespace Value

/-- The type of a value; NULL has none. -/
def datatype? : Value → Option DataType
  | null => none
  | boolean _ => some .boolean
  | int _ => some .int64
  | float _ => some .float64
  | utf8 _ => some .utf8

def isNull : Value → Bool
  | null => true
  | _ => false

def text : Value → String
  | null => "NULL"
  | boolean value => if value then "true" else "false"
  | int value => toString value.toInt
  | float value => value.text
  | utf8 value => value

def minInt64 : Int := -0x8000000000000000

def maxInt64 : Int := 0x7fffffffffffffff

/-- The 64-bit integer of the given value, if there is one. -/
def int64? (n : Int) : Option Int64 :=
  if minInt64 ≤ n ∧ n ≤ maxInt64 then some (Int64.ofInt n) else none

/-- The integer value of the given number, if it has 64 bits. -/
def ofInt? (n : Int) : Option Value :=
  (int64? n).map int

def count (n : Nat) : Value :=
  int (Int64.ofNat n)

/-- A truth value; NULL is neither. -/
def truth? : Value → Result (Option Bool)
  | null => .ok none
  | boolean value => .ok (some value)
  | other => .error (.runtime ("Expected a boolean value, got " ++ other.text))

def toDouble? : Value → Option Number.Binary64
  | int value => some (.ofInt value.toInt)
  | float value => some value
  | _ => none

end Value

abbrev Row := List Value

namespace Row

def empty : Row := []

def nulls (width : Nat) : Row :=
  List.replicate width .null

/-- The values with tabs between them. -/
def text (row : Row) : String :=
  Text.join "\t" (row.map Value.text)

end Row
end SqlPipeline
